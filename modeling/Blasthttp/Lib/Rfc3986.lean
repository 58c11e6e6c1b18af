/-
# Blasthttp.Lib.Rfc3986 -- URI references and their resolution (RFC 3986 §5)

`split` takes a reference apart the way the expression of Appendix B does, and
`resolve` is the algorithm of §5.2.2 with `removeDotSegments` (§5.2.4) and `merge`
(§5.2.3).  What stands between delimiters is a `takeWhile`, so the parts of a text come
out of those of its pieces (`split_scheme`, `split_cases`, `splitHierarchy_cases`).
-/
import Mathlib.Data.List.Basic
import Mathlib.Data.List.DropRight
import Mathlib.Tactic.Common

namespace Blasthttp.Lib.Rfc3986

set_option autoImplicit false

abbrev Text := List Char

structure Reference where
  scheme : Option Text
  authority : Option Text
  path : Text
  query : Option Text
  fragment : Option Text
  deriving DecidableEq

/-! ## Taking a reference apart -/

/-- Characters that do not end a scheme. -/
def inScheme (c : Char) : Bool := c ≠ ':' && c ≠ '/' && c ≠ '?' && c ≠ '#'

/-- Characters that do not end an authority. -/
def inAuthority (c : Char) : Bool := c ≠ '/' && c ≠ '?' && c ≠ '#'

/-- Characters that do not end a path. -/
def inPath (c : Char) : Bool := c ≠ '?' && c ≠ '#'

/-- Characters that do not end a query. -/
def inQuery (c : Char) : Bool := c ≠ '#'

/-- What follows a path: a query behind `?`. -/
def queryOf : Text → Option Text
  | '?' :: rest => some (rest.takeWhile inQuery)
  | _ => none

/-- What follows a query: a fragment behind `#`. -/
def fragmentOf (s : Text) : Option Text :=
  match s.dropWhile inQuery with
  | '#' :: rest => some rest
  | _ => none

/-- Path, query and fragment. -/
def splitPath (scheme authority : Option Text) (s : Text) : Reference where
  scheme := scheme
  authority := authority
  path := s.takeWhile inPath
  query := queryOf (s.dropWhile inPath)
  fragment := fragmentOf (s.dropWhile inPath)

/-- What follows a scheme: an authority behind `//`, then the path. -/
def splitHierarchy (scheme : Option Text) : Text → Reference
  | '/' :: '/' :: rest =>
      splitPath scheme (some (rest.takeWhile inAuthority)) (rest.dropWhile inAuthority)
  | s => splitPath scheme none s

/-- Appendix B. -/
def split (s : Text) : Reference :=
  match s.takeWhile inScheme, s.dropWhile inScheme with
  | c :: scheme, ':' :: rest => splitHierarchy (some (c :: scheme)) rest
  | _, _ => splitHierarchy none s

/-! ## Dot segments -/

/-- Drop the last segment and the `/` in front of it. -/
def dropSegment (out : Text) : Text := (out.rdropWhile (· ≠ '/')).dropLast

/-- The loop of §5.2.4 over the input and the output buffer. -/
def removeDotsLoop : Nat → Text → Text → Text
  | 0, _, out => out
  | fuel + 1, input, out =>
      match input with
      | [] => out
      | ['.'] => out
      | ['.', '.'] => out
      | ['/', '.'] => removeDotsLoop fuel ['/'] out
      | ['/', '.', '.'] => removeDotsLoop fuel ['/'] (dropSegment out)
      | '.' :: '/' :: rest => removeDotsLoop fuel rest out
      | '.' :: '.' :: '/' :: rest => removeDotsLoop fuel rest out
      | '/' :: '.' :: '/' :: rest => removeDotsLoop fuel ('/' :: rest) out
      | '/' :: '.' :: '.' :: '/' :: rest => removeDotsLoop fuel ('/' :: rest) (dropSegment out)
      | c :: rest =>
          removeDotsLoop fuel (rest.dropWhile (· ≠ '/')) (out ++ c :: rest.takeWhile (· ≠ '/'))

/-- Every round takes at least one character off the input. -/
def removeDotSegments (path : Text) : Text := removeDotsLoop path.length path []

/-! ## Resolution -/

/-- The directory of the base path with the reference's path in it. -/
def merge (base ref : Reference) : Text :=
  if base.authority.isSome && base.path.isEmpty then '/' :: ref.path
  else base.path.rdropWhile (· ≠ '/') ++ ref.path

/-- §5.2.2, strict. -/
def resolve (base ref : Reference) : Reference :=
  match ref.scheme, ref.authority with
  | some _, _ => { ref with path := removeDotSegments ref.path }
  | none, some _ => { ref with scheme := base.scheme, path := removeDotSegments ref.path }
  | none, none =>
      { scheme := base.scheme
        authority := base.authority
        path :=
          match ref.path with
          | [] => base.path
          | '/' :: _ => removeDotSegments ref.path
          | _ => removeDotSegments (merge base ref)
        query := if ref.path.isEmpty && ref.query.isNone then base.query else ref.query
        fragment := ref.fragment }

theorem resolve_of_scheme {base ref : Reference} {scheme : Text} (has : ref.scheme = some scheme) :
    resolve base ref = { ref with path := removeDotSegments ref.path } := by
  unfold resolve
  split
  · rfl
  · rename_i missing _
    rw [has] at missing
    cases missing
  · rename_i missing _
    rw [has] at missing
    cases missing

section

variable {base ref : Reference} (noScheme : ref.scheme = none) (noAuthority : ref.authority = none)

include noScheme noAuthority

theorem resolve_inherits :
    (resolve base ref).scheme = base.scheme ∧ (resolve base ref).authority = base.authority := by
  unfold resolve
  rw [noScheme, noAuthority]
  exact ⟨rfl, rfl⟩

theorem resolve_of_empty (empty : ref.path = []) :
    (resolve base ref).path = base.path ∧
      (resolve base ref).query = if ref.query.isNone then base.query else ref.query := by
  unfold resolve
  rw [noScheme, noAuthority]
  simp [empty]

theorem resolve_of_rooted {rest : Text} (rooted : ref.path = '/' :: rest) :
    (resolve base ref).path = removeDotSegments ref.path ∧
      (resolve base ref).query = ref.query := by
  unfold resolve
  rw [noScheme, noAuthority]
  simp [rooted]

end

/-- The base of the examples in §5.4. -/
def exampleBase : Reference := split "http://a/b/c/d;p?q".toList

example : (resolve exampleBase (split "g".toList)).path = "/b/c/g".toList := by decide
example : (resolve exampleBase (split "//g".toList)).authority = some "g".toList := by decide
example : (resolve exampleBase (split "?y".toList)).path = "/b/c/d;p".toList := by decide
example : (resolve exampleBase (split "../../../g".toList)).path = "/g".toList := by decide
example : (resolve exampleBase (split "./g/.".toList)).path = "/b/c/g/".toList := by decide

/-! ## Lengths -/

theorem dropSegment_length (out : Text) : (dropSegment out).length ≤ out.length := by
  have shorter := (List.rdropWhile_prefix (· ≠ '/') out).length_le
  unfold dropSegment
  rw [List.length_dropLast]
  omega

theorem removeDotsLoop_length : ∀ (fuel : Nat) (input out : Text),
    (removeDotsLoop fuel input out).length ≤ out.length + input.length
  | 0, _, out => Nat.le_add_right _ _
  | fuel + 1, input, out => by
      have ih := removeDotsLoop_length fuel
      have dropped := dropSegment_length out
      unfold removeDotsLoop
      split
      · simp
      · simp
      · simp
      · exact (ih ['/'] out).trans (by simp)
      · exact (ih ['/'] (dropSegment out)).trans (by simp only [List.length_cons]; omega)
      · rename_i rest
        exact (ih rest out).trans (by simp only [List.length_cons]; omega)
      · rename_i rest
        exact (ih rest out).trans (by simp only [List.length_cons]; omega)
      · rename_i rest
        exact (ih ('/' :: rest) out).trans (by simp only [List.length_cons]; omega)
      · rename_i rest
        exact (ih ('/' :: rest) (dropSegment out)).trans (by simp only [List.length_cons]; omega)
      · rename_i c rest _ _ _ _ _ _ _ _
        refine (ih _ _).trans ?_
        have whole := congrArg List.length
          (List.takeWhile_append_dropWhile (p := fun c => decide (c ≠ '/')) (l := rest))
        rw [List.length_append] at whole
        rw [List.length_append, List.length_cons, List.length_cons]
        omega

/-- Removing dot segments does not make a path longer. -/
theorem removeDotSegments_length (path : Text) : (removeDotSegments path).length ≤ path.length := by
  have loop := removeDotsLoop_length path.length path []
  rwa [List.length_nil, Nat.zero_add] at loop

/-! ## Parts of longer texts -/

theorem inPath_of_inAuthority {c : Char} (inside : inAuthority c = true) : inPath c = true := by
  unfold inAuthority at inside
  unfold inPath
  simp only [Bool.and_eq_true] at inside ⊢
  exact ⟨inside.1.2, inside.2⟩

theorem inAuthority_of_inScheme {c : Char} (inside : inScheme c = true) : inAuthority c = true := by
  unfold inScheme at inside
  unfold inAuthority
  simp only [Bool.and_eq_true] at inside ⊢
  exact ⟨⟨inside.1.1.2, inside.1.2⟩, inside.2⟩

/-- A scheme and what stands behind its colon. -/
theorem split_scheme {scheme : Text} (named : scheme ≠ []) (inside : ∀ c ∈ scheme, inScheme c = true)
    (rest : Text) : split (scheme ++ ':' :: rest) = splitHierarchy (some scheme) rest := by
  obtain ⟨c, tail, rfl⟩ := List.exists_cons_of_ne_nil named
  unfold split
  rw [List.takeWhile_append_of_pos inside, List.dropWhile_append_of_pos inside,
    List.takeWhile_cons_of_neg (by decide), List.dropWhile_cons_of_neg (by decide),
    List.append_nil]
  rfl

/-- The two ways a text can split at the scheme. -/
theorem split_cases (s : Text) :
    (∃ scheme rest, scheme ≠ [] ∧ (∀ c ∈ scheme, inScheme c = true) ∧ s = scheme ++ ':' :: rest ∧
      split s = splitHierarchy (some scheme) rest) ∨
    split s = splitHierarchy none s := by
  unfold split
  split
  · rename_i c tail rest front back
    refine .inl ⟨c :: tail, rest, by simp, ?_, ?_, rfl⟩
    · intro d there
      rw [← front] at there
      exact List.mem_takeWhile_imp there
    · rw [← front, ← back, List.takeWhile_append_dropWhile]
  · exact .inr rfl

/-- The two ways the rest can split at the authority. -/
theorem splitHierarchy_cases (scheme : Option Text) (s : Text) :
    (∃ rest, s = '/' :: '/' :: rest ∧ splitHierarchy scheme s =
      splitPath scheme (some (rest.takeWhile inAuthority)) (rest.dropWhile inAuthority)) ∨
    splitHierarchy scheme s = splitPath scheme none s := by
  unfold splitHierarchy
  split
  · rename_i rest
    exact .inl ⟨rest, rfl, rfl⟩
  · exact .inr rfl

theorem splitHierarchy_scheme (scheme : Option Text) (s : Text) :
    (splitHierarchy scheme s).scheme = scheme := by
  rcases splitHierarchy_cases scheme s with ⟨_, -, form⟩ | form <;> rw [form] <;> rfl

/-- What is read behind a scheme is the target, but for the dots of its path. -/
theorem resolve_splitHierarchy (base : Reference) {ref : Reference} {scheme rest : Text}
    (parts : ref = splitHierarchy (some scheme) rest) :
    resolve base ref = { ref with path := removeDotSegments ref.path } := by
  have has : ref.scheme = some scheme := by rw [parts, splitHierarchy_scheme]
  exact resolve_of_scheme has

/-- The path behind an authority is no longer than what is left of it as a path. -/
theorem path_behind_authority_length (s : Text) :
    ((s.dropWhile inAuthority).takeWhile inPath).length ≤ (s.takeWhile inPath).length := by
  have front : ∀ c ∈ s.takeWhile inAuthority, inPath c = true := fun c there =>
    inPath_of_inAuthority (List.mem_takeWhile_imp there)
  have whole : s.takeWhile inPath =
      s.takeWhile inAuthority ++ (s.dropWhile inAuthority).takeWhile inPath := by
    conv_lhs => rw [← List.takeWhile_append_dropWhile (p := inAuthority) (l := s)]
    rw [List.takeWhile_append_of_pos front]
  rw [whole, List.length_append]
  omega

end Blasthttp.Lib.Rfc3986
