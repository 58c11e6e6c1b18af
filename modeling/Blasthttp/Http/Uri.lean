/-
# Blasthttp.Http.Uri -- `http::Uri` as its accessors show it

The `http` crate keeps a URI as one string with the places of its parts; the source
reads it through `scheme_str`, `authority`, `host`, `port_u16`, `path` and `query`.
`Uri` is what those return.  Parsing is the crate's, so whatever parses a URI takes
the parser as a parameter.
-/
import Blasthttp.Rust.Str

namespace Blasthttp.Http

open Blasthttp.Rust

set_option autoImplicit false

/-- `Authority`: its text, and the host (brackets kept) and port within it. -/
structure Authority where
  text : Str
  host : Str
  port : Option Nat
  deriving DecidableEq, Repr

structure Uri where
  scheme : Option Str
  authority : Option Authority
  path : Str
  query : Option Str
  deriving DecidableEq, Repr

/-- `Uri::host`. -/
def Uri.host (uri : Uri) : Option Str := uri.authority.map Authority.host

/-- `Uri::port_u16`. -/
def Uri.portU16 (uri : Uri) : Option Nat := uri.authority.bind Authority.port

/-- `uri.scheme_str() == Some("https")`. -/
def Uri.isHttps (uri : Uri) : Bool := uri.scheme = some "https".toList

/-- `uri.host().unwrap_or("")`. -/
def Uri.hostOrEmpty (uri : Uri) : Str := uri.host.getD []

/-- hyper's pool keeps connections by scheme and authority, which `Authority` compares
without regard to ASCII case. -/
def Uri.poolKey (uri : Uri) : Option Str × Option Str :=
  (uri.scheme, uri.authority.map fun authority => toAsciiLowercase authority.text)

/-- `Display for Uri`: scheme, authority, path and query in order. -/
def Uri.toStr (uri : Uri) : Str :=
  (match uri.scheme with | some scheme => scheme ++ "://".toList | none => []) ++
  (match uri.authority with | some authority => authority.text | none => []) ++
  uri.path ++
  (match uri.query with | some query => '?' :: query | none => [])

/-- The crate's parser, with the text of its `InvalidUri`. -/
abbrev Parser := Str → Except Str Uri

end Blasthttp.Http
