/-
# Blasthttp.Rust.IpAddr -- `parse::<std::net::IpAddr>`

The standard library's parser: each reader takes the rest of the input and returns
what it read with what is left, or nothing and leaves the input alone.  An address is
its number, of 32 or of 128 bits.
-/
import Blasthttp.Rust.Str

namespace Blasthttp.Rust

set_option autoImplicit false

inductive IpAddr where
  | v4 (bits : Nat)
  | v6 (bits : Nat)
  deriving DecidableEq, Repr

namespace IpAddr

def readGivenChar (c : Char) : Str → Option Str
  | [] => none
  | d :: rest => if d = c then some rest else none

/-- `read_number`: all digits that follow, refused when there are none, too many, a
leading zero where none may be, or a value past the group's type. -/
def readNumber (radix maxDigits bound : Nat) (allowZeroPrefix : Bool) (s : Str) :
    Option (Nat × Str) :=
  let digits := s.takeWhile fun c => (toDigit radix c).isSome
  let value := digits.foldl (fun n c => radix * n + (toDigit radix c).getD 0) 0
  if digits.isEmpty || maxDigits < digits.length then none
  else if !allowZeroPrefix && digits.head? = some '0' && 1 < digits.length then none
  else if bound ≤ value then none
  else some (value, s.drop digits.length)

def readIpv4 (s : Str) : Option (Nat × Str) := do
  let (a, s) ← readNumber 10 3 256 false s
  let s ← readGivenChar '.' s
  let (b, s) ← readNumber 10 3 256 false s
  let s ← readGivenChar '.' s
  let (c, s) ← readNumber 10 3 256 false s
  let s ← readGivenChar '.' s
  let (d, s) ← readNumber 10 3 256 false s
  pure (((a * 256 + b) * 256 + c) * 256 + d, s)

/-- `read_groups` with `left` of its `limit` groups to go: the groups read, whether
the last two were an embedded IPv4 address, and the rest. -/
def readGroups (limit : Nat) : Nat → Str → List Nat × Bool × Str
  | 0, s => ([], false, s)
  | left + 1, s =>
      let entry := if limit = left + 1 then some s else readGivenChar ':' s
      -- an IPv4 address takes the room of two groups
      match if 1 ≤ left then entry.bind readIpv4 else none with
      | some (quad, rest) => ([quad / 65536, quad % 65536], true, rest)
      | none =>
          match entry.bind (readNumber 16 4 65536 true) with
          | none => ([], false, s)
          | some (group, rest) =>
              let (groups, embedded, rest) := readGroups limit left rest
              (group :: groups, embedded, rest)

def ofGroups (groups : List Nat) : Nat := groups.foldl (fun n group => 65536 * n + group) 0

def readIpv6 (s : Str) : Option (Nat × Str) :=
  let (head, embedded, rest) := readGroups 8 8 s
  if head.length = 8 then some (ofGroups head, rest)
  else if embedded then none
  else do
    let rest ← readGivenChar ':' rest
    let rest ← readGivenChar ':' rest
    let limit := 8 - (head.length + 1)
    let (tail, _, rest) := readGroups limit limit rest
    pure (ofGroups (head ++ List.replicate (8 - head.length - tail.length) 0 ++ tail), rest)

/-- `str::parse::<Ipv4Addr>`, `none` for the error. -/
def parseV4 (s : Str) : Option Nat :=
  match readIpv4 s with
  | some (bits, rest) => if rest.isEmpty then some bits else none
  | none => none

/-- `str::parse::<Ipv6Addr>`. -/
def parseV6 (s : Str) : Option Nat :=
  match readIpv6 s with
  | some (bits, rest) => if rest.isEmpty then some bits else none
  | none => none

/-- `str::parse::<IpAddr>`. -/
def parse (s : Str) : Option IpAddr :=
  match readIpv4 s with
  | some (bits, rest) => if rest.isEmpty then some (.v4 bits) else none
  | none =>
      match readIpv6 s with
      | some (bits, rest) => if rest.isEmpty then some (.v6 bits) else none
      | none => none

example : parse "192.168.0.1".toList = some (.v4 0xC0A80001) := by decide

example : parse "fe80::1.2.3.4".toList = some (.v6 (0xFE80 * 2 ^ 112 + 0x01020304)) := by
  decide +kernel

example : parse "1.2.3.04".toList = none := by decide +kernel

end IpAddr

end Blasthttp.Rust
