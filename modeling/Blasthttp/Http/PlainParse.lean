/-
# Blasthttp.Http.PlainParse -- a parser of the plain URI forms

It takes `scheme://authority` forms, rooted paths and bare authorities apart at their
delimiters, without the `http` crate's checks of the characters in between: enough of
a parser to run the model on ordinary texts.
-/
import Blasthttp.Http.Uri
import Blasthttp.Lib.Rfc3986

namespace Blasthttp.Http

open Blasthttp.Rust Blasthttp.Lib.Rfc3986

set_option autoImplicit false

/-- `Uri::path` of a URI with a scheme never is empty. -/
def pathOrRoot (path : Str) : Str := if path.isEmpty then ['/'] else path

theorem pathOrRoot_ne_nil (path : Str) : pathOrRoot path ≠ [] := by
  unfold pathOrRoot
  cases path <;> simp

/-- Host and port within an authority: behind any user name, brackets kept. -/
def plainAuthority (text : Str) : Authority :=
  let behind :=
    match rsplitOnce '@' text with
    | some (_, behind) => behind
    | none => text
  match behind with
  | '[' :: _ =>
      let host := behind.takeWhile (· ≠ ']') ++ [']']
      match behind.drop host.length with
      | ':' :: port => ⟨text, host, parseUnsigned 16 port⟩
      | _ => ⟨text, host, none⟩
  | _ =>
      match rsplitOnce ':' behind with
      | some (host, port) => ⟨text, host, parseUnsigned 16 port⟩
      | none => ⟨text, behind, none⟩

theorem plainAuthority_text (text : Str) : (plainAuthority text).text = text := by
  unfold plainAuthority
  simp only
  split
  · split <;> rfl
  · split <;> rfl

/-- A parser of `scheme://authority` forms, rooted paths and bare authorities. -/
def plainParse : Parser := fun s =>
  let ref := split s
  match ref.scheme, ref.authority with
  | some scheme, some authority =>
      if authority.isEmpty then .error "invalid format".toList
      else
        .ok
          { scheme := some scheme
            authority := some (plainAuthority authority)
            path := pathOrRoot ref.path
            query := ref.query }
  | _, _ =>
      if s.head? = some '/' then
        .ok
          { scheme := none
            authority := none
            path := s.takeWhile inPath
            query := queryOf (s.dropWhile inPath) }
      else if s.isEmpty then .error "empty string".toList
      else if s.all inAuthority then
        .ok { scheme := none, authority := some (plainAuthority s), path := [], query := none }
      else .error "invalid format".toList

theorem plainParse_scheme {s : Str} {uri : Uri} {scheme : Str} (parsed : plainParse s = .ok uri)
    (absolute : uri.scheme = some scheme) :
    ∃ authority, (split s).scheme = some scheme ∧ (split s).authority = some authority ∧
      authority ≠ [] ∧ uri.authority = some (plainAuthority authority) ∧
      uri.path = pathOrRoot (split s).path ∧ uri.query = (split s).query := by
  simp only [plainParse] at parsed
  split at parsed
  · rename_i named authority hasScheme hasAuthority
    split at parsed
    · cases parsed
    · rename_i nonempty
      cases parsed
      cases absolute
      exact ⟨authority, hasScheme, hasAuthority, by simpa using nonempty, rfl, rfl, rfl⟩
  · -- the other forms carry no scheme
    split at parsed
    · cases parsed
      cases absolute
    · split at parsed
      · cases parsed
      · split at parsed
        · cases parsed
          cases absolute
        · cases parsed

/-- A URI with a scheme was written as one. -/
theorem plainParse_written {s : Str} {uri : Uri} {scheme : Str} (parsed : plainParse s = .ok uri)
    (absolute : uri.scheme = some scheme) :
    ∃ rest, s = scheme ++ "://".toList ++ rest ∧ (∀ c ∈ scheme, inScheme c = true) ∧
      rest.takeWhile inAuthority ≠ [] ∧
      uri.authority = some (plainAuthority (rest.takeWhile inAuthority)) ∧
      uri.path = pathOrRoot ((rest.dropWhile inAuthority).takeWhile inPath) ∧
      uri.query = queryOf ((rest.dropWhile inAuthority).dropWhile inPath) := by
  obtain ⟨authority, hasScheme, hasAuthority, nonempty, shown, path, query⟩ :=
    plainParse_scheme parsed absolute
  rcases split_cases s with ⟨written, behind, -, inside, text, parts⟩ | parts
  · have own : written = scheme := by
      rw [parts, splitHierarchy_scheme] at hasScheme
      exact Option.some.inj hasScheme
    subst own
    rcases splitHierarchy_cases (some written) behind with ⟨rest, slashes, form⟩ | form
    · have whole := parts.trans form
      rw [whole] at hasAuthority path query
      have part : rest.takeWhile inAuthority = authority := Option.some.inj hasAuthority
      subst part
      refine ⟨rest, ?_, inside, nonempty, shown, path, query⟩
      rw [text, slashes]
      simp
    · rw [parts, form] at hasAuthority
      cases hasAuthority
  · rw [parts, splitHierarchy_scheme] at hasScheme
    cases hasScheme

/-- `https://example.com/`. -/
def exampleRoot : Uri where
  scheme := some "https".toList
  authority := some (plainAuthority "example.com".toList)
  path := "/".toList
  query := none

example : plainParse "https://example.com".toList = .ok exampleRoot := by decide
example : plainAuthority "me@[::1]:8443".toList =
    ⟨"me@[::1]:8443".toList, "[::1]".toList, some 8443⟩ := by decide

end Blasthttp.Http
