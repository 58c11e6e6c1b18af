/-
# Blasthttp.Http.HostLiteral -- the address a URI's host is

In a URI an IPv4 address stands as it is and an IPv6 address between brackets, and
`Uri::host` leaves them there.  `parse::<IpAddr>` on that text finds the address of
every host but an IPv6 literal (`parse_eq_hostLiteral`).
-/
import Blasthttp.Http.PlainParse
import Blasthttp.Rust.IpText

namespace Blasthttp.Http

open Blasthttp.Rust

set_option autoImplicit false

/-- What stands between the brackets of a host that has them. -/
def bracketed : Str → Option Str
  | '[' :: rest => if rest.getLast? = some ']' then some rest.dropLast else none
  | _ => none

/-- `IPv4address` and `IP-literal`, with an IPv6 address in it. -/
def hostLiteral (host : Str) : Option IpAddr :=
  match IpAddr.parseV4 host with
  | some bits => some (.v4 bits)
  | none => (bracketed host).bind fun inner => (IpAddr.parseV6 inner).map .v6

/-- A host as `Uri::host` gives it: an IPv6 address stands between its brackets. -/
def KeepsBrackets (host : Str) : Prop := IpAddr.parseV6 host = none

instance (host : Str) : Decidable (KeepsBrackets host) :=
  inferInstanceAs (Decidable (IpAddr.parseV6 host = none))

theorem bracketed_eq_some {host inner : Str} :
    bracketed host = some inner ↔ host = '[' :: (inner ++ [']']) := by
  unfold bracketed
  split
  · rename_i rest
    split
    · rename_i closed
      obtain ⟨front, rfl⟩ := List.getLast?_eq_some_iff.mp closed
      simp
    · rename_i open_
      constructor
      · rintro ⟨⟩
      · intro same
        cases same
        simp at open_
  · rename_i other
    constructor
    · rintro ⟨⟩
    · intro same
      exact absurd same (other _)

theorem hostLiteral_v4 {host : Str} {bits : Nat} :
    hostLiteral host = some (.v4 bits) ↔ IpAddr.parseV4 host = some bits := by
  unfold hostLiteral
  cases IpAddr.parseV4 host with
  | some n => simp
  | none =>
      cases bracketed host with
      | none => simp
      | some inner => simp

/-- An IPv6 literal is an address between brackets, and so none without them. -/
theorem hostLiteral_v6 {host : Str} {bits : Nat} :
    hostLiteral host = some (.v6 bits) ↔
      ∃ inner, host = '[' :: (inner ++ [']']) ∧ IpAddr.parseV6 inner = some bits := by
  constructor
  · intro literal
    unfold hostLiteral at literal
    split at literal
    · cases literal
    · obtain ⟨inner, between, address⟩ := Option.bind_eq_some_iff.mp literal
      obtain ⟨n, parsed, same⟩ := Option.map_eq_some_iff.mp address
      cases same
      exact ⟨inner, bracketed_eq_some.mp between, parsed⟩
  · rintro ⟨inner, rfl, parsed⟩
    have notV4 : IpAddr.parseV4 ('[' :: (inner ++ [']'])) = none := by
      cases found : IpAddr.parseV4 ('[' :: (inner ++ [']'])) with
      | none => rfl
      | some n =>
          have address := IpAddr.parse_eq_v4.mpr found
          rw [IpAddr.parse_bracket] at address
          cases address
    have between : bracketed ('[' :: (inner ++ [']'])) = some inner := bracketed_eq_some.mpr rfl
    simp only [hostLiteral, notV4, between, Option.bind_some, parsed, Option.map_some]

theorem parse_of_v6 {host : Str} {bits : Nat} (literal : hostLiteral host = some (.v6 bits)) :
    IpAddr.parse host = none := by
  obtain ⟨inner, rfl, -⟩ := hostLiteral_v6.mp literal
  exact IpAddr.parse_bracket _

/-- The parser sees the address of a URI's host exactly if that is no IPv6 literal. -/
theorem parse_eq_hostLiteral {host : Str} (keeps : KeepsBrackets host) :
    IpAddr.parse host = hostLiteral host ↔ ∀ bits, hostLiteral host ≠ some (.v6 bits) := by
  constructor
  · intro same bits literal
    rw [parse_of_v6 literal, literal] at same
    cases same
  · intro notV6
    cases parsed : IpAddr.parse host with
    | some ip =>
        cases ip with
        | v4 bits => exact (hostLiteral_v4.mpr (IpAddr.parse_eq_v4.mp parsed)).symm
        | v6 bits =>
            rw [KeepsBrackets, IpAddr.parse_eq_v6.mp parsed] at keeps
            cases keeps
    | none =>
        cases literal : hostLiteral host with
        | none => rfl
        | some ip =>
            cases ip with
            | v4 bits =>
                rw [IpAddr.parse_eq_v4.mpr (hostLiteral_v4.mp literal)] at parsed
                cases parsed
            | v6 bits => exact absurd literal (notV6 bits)

/-- `https://[::1]/`. -/
def v6Root : Uri := { exampleRoot with authority := some (plainAuthority "[::1]".toList) }

example : v6Root.host.bind hostLiteral = some (.v6 1) := by decide +kernel

end Blasthttp.Http
