/-
# Blasthttp.NoProxy -- the language of `no_proxy` patterns

What a pattern stands for, in its own terms: every host, a block of addresses, one
address, or a domain with its subdomains (`Covers`).  `hostBypassesProxy_iff` reads the
loop of `host_bypasses_proxy` off that; the comparison of domains is the source's one on
bytes (`hostMatchesSuffix_bytes`), and no mask is shifted past its width
(`ipInCidrChecked_eq`).  `rootDot_iff` is the one place where a dot at the end of a host
counts.
-/
import Blasthttp.Config
import Blasthttp.Http.HostLiteral
import Blasthttp.Lib.Bits
import Blasthttp.Rust.Utf8

namespace Blasthttp

open Blasthttp.Rust Blasthttp.Http Blasthttp.Lib.Bits

set_option autoImplicit false

/-! ## Blocks of addresses -/

/-- `a << n` on `width` bits. -/
def shl (width a n : Nat) : Except Crash Nat :=
  if n < width then .ok ((a <<< n) % 2 ^ width) else .error .overflow

def sameBlockChecked (width ip net prefixLen : Nat) : Except Crash Bool :=
  if width < prefixLen then .ok false
  else if prefixLen = 0 then .ok true
  else do
    let low ← subUsize width prefixLen
    let mask ← shl width (2 ^ width - 1) low
    pure (ip &&& mask = net &&& mask)

/-- `ip_in_cidr`, with the panics its arithmetic could have. -/
def ipInCidrChecked : IpAddr → IpAddr → Nat → Except Crash Bool
  | .v4 ip, .v4 net, prefixLen => sameBlockChecked 32 ip net prefixLen
  | .v6 ip, .v6 net, prefixLen => sameBlockChecked 128 ip net prefixLen
  | _, _, _ => .ok false

theorem sameBlockChecked_eq (width ip net prefixLen : Nat) :
    sameBlockChecked width ip net prefixLen = .ok (sameBlock width ip net prefixLen) := by
  unfold sameBlockChecked sameBlock
  split
  · rfl
  · rename_i fits
    split
    · rfl
    · rename_i positive
      have room : width - prefixLen < width := by omega
      rw [subUsize_of_le (Nat.le_of_not_lt fits), ok_bind, shl, if_pos room, ok_bind]
      rfl

theorem ipInCidrChecked_eq (ip net : IpAddr) (prefixLen : Nat) :
    ipInCidrChecked ip net prefixLen = .ok (ipInCidr ip net prefixLen) := by
  cases ip with
  | v4 ip =>
      cases net with
      | v4 net => exact sameBlockChecked_eq _ ip net prefixLen
      | v6 net => rfl
  | v6 ip =>
      cases net with
      | v4 net => rfl
      | v6 net => exact sameBlockChecked_eq _ ip net prefixLen

/-- The first bits of an address. -/
def firstBits (ip : IpAddr) (count : Nat) : List Bool := (msb ip.width ip.bits).take count

/-- `net/len` as a block of the addresses of its family. -/
def InBlock (ip net : IpAddr) (len : Nat) : Prop :=
  ip.width = net.width ∧ len ≤ net.width ∧ firstBits ip len = firstBits net len

theorem sameBlock_iff {width ip net len : Nat} :
    sameBlock width ip net len = true ↔
      len ≤ width ∧ (msb width ip).take len = (msb width net).take len := by
  unfold sameBlock
  split
  · rename_i wide
    simp [Nat.not_le.mpr wide]
  · rename_i fits
    have le : len ≤ width := Nat.le_of_not_lt fits
    split
    · rename_i zero
      simp [zero]
    · have masked := and_mask_eq_iff len (width - len) ip net
      rw [Nat.add_sub_cancel' le] at masked
      rw [decide_eq_true_iff, cidrMask, masked]
      exact (and_iff_right le).symm

theorem ipInCidr_iff {ip net : IpAddr} {len : Nat} :
    ipInCidr ip net len = true ↔ InBlock ip net len := by
  cases ip with
  | v4 ip =>
      cases net with
      | v4 net => simp [ipInCidr, InBlock, firstBits, IpAddr.width, IpAddr.bits, sameBlock_iff]
      | v6 net => simp [ipInCidr, InBlock, IpAddr.width]
  | v6 ip =>
      cases net with
      | v4 net => simp [ipInCidr, InBlock, IpAddr.width]
      | v6 net => simp [ipInCidr, InBlock, firstBits, IpAddr.width, IpAddr.bits, sameBlock_iff]

/-! ## Domains -/

/-- The domain, or a subdomain of it, in any letter case. -/
def InDomain (host domain : Str) : Prop :=
  toAsciiLowercase host = toAsciiLowercase domain ∨
    ∃ front tail, host = front ++ '.' :: tail ∧ toAsciiLowercase tail = toAsciiLowercase domain

section Suffixes

variable {α : Type} [DecidableEq α] (dot : α) (lower : α → α)

/-- `host_matches_suffix`, on whatever a text consists of. -/
def matchesSuffix (host suffix : List α) : Bool :=
  if host.length = suffix.length then host.map lower = suffix.map lower
  else if suffix.length < host.length ∧ host[host.length - suffix.length - 1]? = some dot then
    (host.drop (host.length - suffix.length)).map lower = suffix.map lower
  else false

theorem matchesSuffix_iff {host suffix : List α} :
    matchesSuffix dot lower host suffix = true ↔
      host.map lower = suffix.map lower ∨
        ∃ front tail, host = front ++ dot :: tail ∧ tail.map lower = suffix.map lower := by
  constructor
  · intro found
    unfold matchesSuffix at found
    split at found
    · exact .inl (of_decide_eq_true found)
    · split at found
      · rename_i longer
        obtain ⟨long, there⟩ := longer
        obtain ⟨start, place⟩ : ∃ start, host.length - suffix.length = start + 1 :=
          ⟨host.length - suffix.length - 1, by omega⟩
        rw [place, Nat.add_sub_cancel] at there
        rw [place] at found
        obtain ⟨inside, value⟩ := List.getElem?_eq_some_iff.mp there
        refine .inr ⟨host.take start, host.drop (start + 1), ?_, of_decide_eq_true found⟩
        rw [← value, List.getElem_cons_drop, List.take_append_drop]
      · cases found
  · rintro (same | ⟨front, tail, rfl, same⟩)
    · have lengths : host.length = suffix.length := by simpa using congrArg List.length same
      rw [matchesSuffix, if_pos lengths]
      exact decide_eq_true same
    · have lengths : tail.length = suffix.length := by simpa using congrArg List.length same
      have start : (front ++ dot :: tail).length - suffix.length = front.length + 1 := by
        simp only [List.length_append, List.length_cons]
        omega
      have longer : ¬ (front ++ dot :: tail).length = suffix.length := by
        simp only [List.length_append, List.length_cons]
        omega
      have there : suffix.length < (front ++ dot :: tail).length ∧
          (front ++ dot :: tail)[(front ++ dot :: tail).length - suffix.length - 1]? = some dot := by
        refine ⟨by simp only [List.length_append, List.length_cons]; omega, ?_⟩
        rw [start]
        simp
      rw [matchesSuffix, if_neg longer, if_pos there, start]
      simpa using same

end Suffixes

theorem hostMatchesSuffix_iff {host suffix : Str} :
    hostMatchesSuffix host suffix = true ↔ InDomain host suffix :=
  matchesSuffix_iff '.' Char.toLower

/-- The source compares the UTF-8 bytes. -/
theorem hostMatchesSuffix_bytes (host suffix : Str) :
    matchesSuffix 0x2E lowerByte (utf8Bytes host) (utf8Bytes suffix) =
      hostMatchesSuffix host suffix := by
  rw [Bool.eq_iff_iff, matchesSuffix_iff, hostMatchesSuffix_iff, InDomain, map_lowerByte_eq_iff]
  refine or_congr_right ⟨?_, ?_⟩
  · rintro ⟨front, tail, bytes, same⟩
    obtain ⟨before, after, rfl, rfl, rfl⟩ := utf8Bytes_split (a := '.') (by decide) bytes
    exact ⟨before, after, rfl, map_lowerByte_eq_iff.mp same⟩
  · rintro ⟨front, tail, rfl, same⟩
    refine ⟨utf8Bytes front, utf8Bytes tail, ?_, map_lowerByte_eq_iff.mpr same⟩
    rw [utf8Bytes_append, utf8Bytes_cons]
    rfl

/-! ## Patterns -/

/-- What is left of a pattern for a name: leading `*` and the dots around it are ignored. -/
def domainOf (pattern : Str) : Str :=
  ((pattern.dropWhile (· = '*')).dropWhile (· = '.')).rdropWhile (· = '.')

/-- `net/len` around the address, or the address itself. -/
def CoversAddress (ip : IpAddr) (pattern : Str) : Prop :=
  (∃ netText lenText net len, splitOnce '/' pattern = some (netText, lenText) ∧
    IpAddr.parse (trim netText) = some net ∧ parseUnsigned 8 (trim lenText) = some len ∧
    InBlock ip net len) ∨
  IpAddr.parse pattern = some ip

def CoversName (name pattern : Str) : Prop :=
  '/' ∉ pattern ∧ IpAddr.parse pattern = none ∧ domainOf pattern ≠ [] ∧
    InDomain name (domainOf pattern)

/-- A host, with its address if it is one, is covered by a trimmed pattern. -/
def Covers (name : Str) (ip : Option IpAddr) (pattern : Str) : Prop :=
  pattern = ['*'] ∨ (∃ address, ip = some address ∧ CoversAddress address pattern) ∨
    (ip = none ∧ CoversName name pattern)

theorem parse_slash {s : Str} (slash : '/' ∈ s) : IpAddr.parse s = none := by
  cases parsed : IpAddr.parse s with
  | none => rfl
  | some ip => exact absurd ((IpAddr.parse_text parsed).chars '/' slash) (by decide)

theorem not_covers_nil (name : Str) (ip : Option IpAddr) : ¬ Covers name ip [] := by
  have notAddress : IpAddr.parse [] = none := by decide
  rintro (star | ⟨address, -, ⟨netText, lenText, net, len, split, -⟩ | same⟩ | ⟨-, -, -, named, -⟩)
  · cases star
  · cases split
  · rw [notAddress] at same
    cases same
  · exact named rfl

/-- A pattern with a slash is a block or nothing. -/
theorem covers_slash {name pattern netText lenText : Str} {ip : Option IpAddr}
    (other : pattern ≠ ['*']) (split : splitOnce '/' pattern = some (netText, lenText)) :
    Covers name ip pattern ↔
      ∃ address net len, ip = some address ∧ IpAddr.parse (trim netText) = some net ∧
        parseUnsigned 8 (trim lenText) = some len ∧ InBlock address net len := by
  have slash : '/' ∈ pattern := by
    rw [(splitOnce_spec split).1]
    simp
  have notAddress := parse_slash slash
  simp [Covers, CoversAddress, CoversName, other, split, slash, notAddress]

theorem covers_plain {name pattern : Str} {ip : Option IpAddr} (other : pattern ≠ ['*'])
    (plain : splitOnce '/' pattern = none) :
    Covers name ip pattern ↔
      (∃ address, ip = some address ∧ IpAddr.parse pattern = some address) ∨
        (ip = none ∧ CoversName name pattern) := by
  simp [Covers, CoversAddress, other, plain]

theorem patternMatches_iff {name pattern : Str} {ip : Option IpAddr} :
    patternMatches name ip pattern = true ↔ Covers name ip pattern := by
  cases pattern with
  | nil => exact iff_of_false (by simp [patternMatches]) (not_covers_nil name ip)
  | cons c rest =>
      by_cases star : c :: rest = ['*']
      · exact iff_of_true (by simp [patternMatches, star]) (.inl star)
      · cases split : splitOnce '/' (c :: rest) with
        | some parts =>
            obtain ⟨netText, lenText⟩ := parts
            rw [covers_slash star split]
            simp only [patternMatches, List.isEmpty_cons, Bool.false_eq_true, if_false, star, split]
            cases ip with
            | none => simp
            | some address =>
                cases IpAddr.parse (trim netText) with
                | none => simp
                | some net =>
                    cases parseUnsigned 8 (trim lenText) with
                    | none => simp
                    | some len => simp [ipInCidr_iff]
        | none =>
            have plain : '/' ∉ c :: rest := by
              intro slash
              obtain ⟨front, back, whole, first⟩ := List.eq_append_cons_of_mem slash
              rw [whole, splitOnce_append first] at split
              cases split
            rw [covers_plain star split]
            simp only [patternMatches, List.isEmpty_cons, Bool.false_eq_true, if_false, star, split,
              CoversName, plain, not_false_eq_true, true_and]
            cases IpAddr.parse (c :: rest) with
            | some listed =>
                cases ip with
                | none => simp
                | some address => simp [eq_comm]
            | none =>
                cases ip with
                | some address => simp
                | none =>
                    simp only [Option.isSome_none, Bool.false_eq_true, if_false, domainOf]
                    simp [hostMatchesSuffix_iff]

/-- The address of a host, which a dot behind it would hide. -/
def addressOf (host : Str) : Option IpAddr := IpAddr.parse (stripBrackets host)

/-- A host as names are compared with it. -/
def nameOf (host : Str) : Str := (stripBrackets host).rdropWhile (· = '.')

theorem hostBypassesProxy_covers {host : Str} (nonempty : host ≠ []) (patterns : List Str) :
    hostBypassesProxy host patterns = true ↔
      ∃ pattern ∈ patterns, Covers (nameOf host) (addressOf host) (trim pattern) := by
  have notEmpty : host.isEmpty = false := by simpa using nonempty
  simp only [hostBypassesProxy, notEmpty, Bool.false_eq_true, if_false, List.any_eq_true,
    patternMatches_iff, nameOf, addressOf]

/-- **The language of `no_proxy`.** A host bypasses the proxy exactly if one of the
patterns, trimmed and not empty, covers it; so neither their order nor a repetition
matters, more patterns never take a host back, and no shift of a mask overflows. -/
theorem hostBypassesProxy_iff {host : Str} (nonempty : host ≠ []) (patterns : List Str) :
    (hostBypassesProxy host patterns = true ↔
      ∃ pattern ∈ patterns, trim pattern ≠ [] ∧
        Covers (nameOf host) (addressOf host) (trim pattern)) ∧
    (∀ others, (∀ pattern ∈ patterns, pattern ∈ others) →
      hostBypassesProxy host patterns = true → hostBypassesProxy host others = true) ∧
    (∀ others, (∀ pattern, pattern ∈ patterns ↔ pattern ∈ others) →
      hostBypassesProxy host patterns = hostBypassesProxy host others) ∧
    (∀ ip net prefixLen, ipInCidrChecked ip net prefixLen = .ok (ipInCidr ip net prefixLen)) := by
  refine ⟨?_, ?_, ?_, ipInCidrChecked_eq⟩
  · rw [hostBypassesProxy_covers nonempty]
    refine exists_congr fun pattern => and_congr_right fun _ => ?_
    constructor
    · intro covers
      refine ⟨?_, covers⟩
      intro empty
      rw [empty] at covers
      exact not_covers_nil _ _ covers
    · rintro ⟨-, covers⟩
      exact covers
  · intro others among bypasses
    rw [hostBypassesProxy_covers nonempty] at bypasses ⊢
    obtain ⟨pattern, there, covers⟩ := bypasses
    exact ⟨pattern, among pattern there, covers⟩
  · intro others same
    rw [Bool.eq_iff_iff, hostBypassesProxy_covers nonempty, hostBypassesProxy_covers nonempty]
    exact exists_congr fun pattern => and_congr_left fun _ => same pattern

theorem hostBypassesProxy_iff_subdomain :
    "api.Internal.corp".toList ≠ [] ∧
    (hostBypassesProxy "api.Internal.corp".toList [" *.internal.CORP".toList] = true ↔
      ∃ pattern ∈ [" *.internal.CORP".toList], trim pattern ≠ [] ∧
        Covers (nameOf "api.Internal.corp".toList) (addressOf "api.Internal.corp".toList)
          (trim pattern)) :=
  ⟨by decide, (hostBypassesProxy_iff (by decide) _).1⟩

example : hostBypassesProxy "api.Internal.corp".toList [" *.internal.CORP".toList] = true := by
  decide

example : hostBypassesProxy "[fd00::1]".toList ["fd00::/8".toList] = true := by decide +kernel

/-! ## A dot at the end -/

/-- A host as it stands in a URI: brackets only around an IPv6 literal, and one never
without them. -/
structure UriHost (host : Str) : Prop where
  keeps : KeepsBrackets host
  only : bracketed host = none ∨ ∃ bits, hostLiteral host = some (.v6 bits)

theorem stripBrackets_eq (host : Str) : stripBrackets host = (bracketed host).getD host := by
  cases between : bracketed host with
  | some inner =>
      rw [bracketed_eq_some.mp between]
      simp [stripBrackets]
  | none =>
      unfold stripBrackets
      split
      · rename_i rest
        split
        · rename_i closed
          rw [bracketed, if_pos closed] at between
          cases between
        · rfl
      · rfl

theorem bracketed_dotted (host : Str) : bracketed (host ++ ['.']) = none := by
  cases between : bracketed (host ++ ['.']) with
  | none => rfl
  | some inner =>
      have shape := bracketed_eq_some.mp between
      rw [← List.cons_append] at shape
      exact absurd (List.append_inj' shape rfl).2 (by decide)

theorem addressOf_dotted (host : Str) : addressOf (host ++ ['.']) = none := by
  rw [addressOf, stripBrackets_eq, bracketed_dotted]
  exact IpAddr.parse_dotted host

theorem nameOf_dotted (host : Str) : nameOf (host ++ ['.']) = host.rdropWhile (· = '.') := by
  rw [nameOf, stripBrackets_eq, bracketed_dotted]
  exact List.rdropWhile_concat_pos _ _ _ (by simp)

theorem addressOf_eq {host : Str} (form : UriHost host) : addressOf host = hostLiteral host := by
  rw [addressOf, stripBrackets_eq]
  rcases form.only with plain | ⟨bits, literal⟩
  · rw [plain]
    apply (parse_eq_hostLiteral form.keeps).mpr
    intro bits literal
    obtain ⟨inner, rfl, -⟩ := hostLiteral_v6.mp literal
    have between : bracketed ('[' :: (inner ++ [']'])) = some inner := bracketed_eq_some.mpr rfl
    rw [between] at plain
    cases plain
  · obtain ⟨inner, shape, parsed⟩ := hostLiteral_v6.mp literal
    rw [literal, bracketed_eq_some.mpr shape]
    exact IpAddr.parse_eq_v6.mpr parsed

theorem covers_address {name pattern : Str} {ip : IpAddr} :
    Covers name (some ip) pattern ↔ pattern = ['*'] ∨ CoversAddress ip pattern := by
  simp [Covers]

theorem covers_name {name pattern : Str} :
    Covers name none pattern ↔ pattern = ['*'] ∨ CoversName name pattern := by
  simp [Covers]

/-- No literal ends in a dot. -/
theorem rdropWhile_literal {host : Str} {ip : IpAddr} (literal : hostLiteral host = some ip) :
    host.rdropWhile (· = '.') = host := by
  have last : ∃ front c, host = front ++ [c] ∧ c ≠ '.' := by
    cases ip with
    | v4 bits => exact (IpAddr.parse_text (IpAddr.parse_eq_v4.mpr (hostLiteral_v4.mp literal))).last
    | v6 bits =>
        obtain ⟨inner, shape, -⟩ := hostLiteral_v6.mp literal
        exact ⟨'[' :: inner, ']', shape, by decide⟩
  obtain ⟨front, c, shape, other⟩ := last
  rw [shape]
  exact List.rdropWhile_concat_neg _ _ _ (by simpa using other)

theorem trim_address {s : Str} {ip : IpAddr} (parsed : IpAddr.parse s = some ip) : trim s = s := by
  have chars := (IpAddr.parse_text parsed).chars
  have solid : ∀ c ∈ s, isWhitespace c = false :=
    fun c there => IpAddr.isAddressChar_solid (chars c there)
  obtain ⟨before, after, split, front, back⟩ := trim_spec s
  have nothing : ∀ {part : Str}, (∀ c ∈ part, c ∈ s) → (∀ c ∈ part, isWhitespace c = true) →
      part = [] := by
    intro part inside blank
    cases part with
    | nil => rfl
    | cons c rest =>
        have solid_c := solid c (inside c List.mem_cons_self)
        rw [blank c List.mem_cons_self] at solid_c
        cases solid_c
  have first : before = [] := nothing (fun c there => by rw [split]; simp [there]) front
  have second : after = [] := nothing (fun c there => by rw [split]; simp [there]) back
  rw [first, second] at split
  simpa using split.symm

/-- The pattern that names the address of a literal. -/
theorem exists_pattern {host : Str} {ip : IpAddr} (literal : hostLiteral host = some ip) :
    ∃ pattern, IpAddr.parse pattern = some ip := by
  cases ip with
  | v4 bits => exact ⟨host, IpAddr.parse_eq_v4.mpr (hostLiteral_v4.mp literal)⟩
  | v6 bits =>
      obtain ⟨inner, -, parsed⟩ := hostLiteral_v6.mp literal
      exact ⟨inner, IpAddr.parse_eq_v6.mpr parsed⟩

/-- Both spellings of a name are one host. -/
theorem bypasses_dotted_name {host : Str} (nonempty : host ≠ []) (form : UriHost host)
    (name : hostLiteral host = none) (patterns : List Str) :
    hostBypassesProxy host patterns = hostBypassesProxy (host ++ ['.']) patterns := by
  have plain : bracketed host = none := by
    rcases form.only with plain | ⟨bits, literal⟩
    · exact plain
    · rw [name] at literal
      cases literal
  have same : nameOf host = nameOf (host ++ ['.']) := by
    rw [nameOf_dotted, nameOf, stripBrackets_eq, plain]
    rfl
  rw [Bool.eq_iff_iff, hostBypassesProxy_covers nonempty, hostBypassesProxy_covers (by simp),
    addressOf_eq form, name, addressOf_dotted, same]

/-- With the dot a literal is compared as a name. -/
theorem bypasses_literal {host : Str} {ip : IpAddr} (nonempty : host ≠ []) (form : UriHost host)
    (literal : hostLiteral host = some ip) (patterns : List Str) :
    (hostBypassesProxy host patterns = true ↔
      (∃ pattern ∈ patterns, trim pattern = ['*']) ∨
        ∃ pattern ∈ patterns, CoversAddress ip (trim pattern)) ∧
    (hostBypassesProxy (host ++ ['.']) patterns = true ↔
      (∃ pattern ∈ patterns, trim pattern = ['*']) ∨
        ∃ pattern ∈ patterns, CoversName host (trim pattern)) := by
  have dotted : host ++ ['.'] ≠ [] := by simp
  rw [hostBypassesProxy_covers nonempty, hostBypassesProxy_covers dotted, addressOf_eq form,
    literal, addressOf_dotted, nameOf_dotted, rdropWhile_literal literal]
  simp only [covers_address, covers_name, and_or_left, exists_or, and_self]

theorem or_iff_or_of_left {a b c : Prop} : (a ∨ b ↔ a ∨ c) ↔ a ∨ (b ↔ c) := by tauto

/-- **The dot at the end of a host counts for addresses only**, and there wherever the
patterns cover the address and the text it is written in differently. -/
theorem rootDot_iff {host : Str} (nonempty : host ≠ []) (form : UriHost host) :
    (∀ patterns,
      hostBypassesProxy host patterns = hostBypassesProxy (host ++ ['.']) patterns ↔
        ∀ ip, hostLiteral host = some ip →
          (∃ pattern ∈ patterns, trim pattern = ['*']) ∨
            ((∃ pattern ∈ patterns, CoversAddress ip (trim pattern)) ↔
              ∃ pattern ∈ patterns, CoversName host (trim pattern))) ∧
    ((∀ patterns, hostBypassesProxy host patterns = hostBypassesProxy (host ++ ['.']) patterns) ↔
      hostLiteral host = none) := by
  cases literal : hostLiteral host with
  | none =>
      have same := bypasses_dotted_name nonempty form literal
      refine ⟨fun patterns => iff_of_true (same patterns) ?_, iff_of_true same rfl⟩
      intro ip other
      cases other
  | some ip =>
      have each : ∀ patterns,
          hostBypassesProxy host patterns = hostBypassesProxy (host ++ ['.']) patterns ↔
            (∃ pattern ∈ patterns, trim pattern = ['*']) ∨
              ((∃ pattern ∈ patterns, CoversAddress ip (trim pattern)) ↔
                ∃ pattern ∈ patterns, CoversName host (trim pattern)) := by
        intro patterns
        obtain ⟨bare, dotted⟩ := bypasses_literal nonempty form literal patterns
        rw [Bool.eq_iff_iff, bare, dotted]
        exact or_iff_or_of_left
      refine ⟨?_, ?_⟩
      · intro patterns
        rw [each patterns]
        simp
      · refine iff_of_false ?_ (by simp)
        intro same
        obtain ⟨pattern, parsed⟩ := exists_pattern literal
        have trimmed := trim_address parsed
        rcases (each [pattern]).mp (same _) with ⟨star, there, isStar⟩ | both
        · have notAddress : IpAddr.parse ['*'] = none := by decide
          rw [List.mem_singleton.mp there, trimmed] at isStar
          rw [isStar, notAddress] at parsed
          cases parsed
        · obtain ⟨named, there, covers⟩ := both.mp ⟨pattern, List.mem_singleton_self _, .inr (by
            rw [trimmed]
            exact parsed)⟩
          rw [List.mem_singleton.mp there, trimmed] at covers
          rw [covers.2.1] at parsed
          cases parsed

theorem tenOne_uriHost : UriHost "10.0.0.1".toList where
  keeps := by decide +kernel
  only := .inl (by decide)

theorem rootDot_iff_address :
    (∀ patterns,
      hostBypassesProxy "10.0.0.1".toList patterns =
          hostBypassesProxy ("10.0.0.1".toList ++ ['.']) patterns ↔
        ∀ ip, hostLiteral "10.0.0.1".toList = some ip →
          (∃ pattern ∈ patterns, trim pattern = ['*']) ∨
            ((∃ pattern ∈ patterns, CoversAddress ip (trim pattern)) ↔
              ∃ pattern ∈ patterns, CoversName "10.0.0.1".toList (trim pattern))) ∧
    ((∀ patterns, hostBypassesProxy "10.0.0.1".toList patterns =
        hostBypassesProxy ("10.0.0.1".toList ++ ['.']) patterns) ↔
      hostLiteral "10.0.0.1".toList = none) :=
  rootDot_iff (by decide) tenOne_uriHost

/-- A dot hides the address of an IPv4 and of an IPv6 literal. -/
theorem rootDot_hides :
    hostBypassesProxy "10.0.0.1".toList ["10.0.0.0/8".toList] = true ∧
      hostBypassesProxy "10.0.0.1.".toList ["10.0.0.0/8".toList] = false ∧
      hostBypassesProxy "[::1]".toList ["::1".toList] = true ∧
      hostBypassesProxy "[::1].".toList ["::1".toList] = false ∧
      ¬ ∀ (host : Str) (patterns : List Str), host ≠ [] → UriHost host →
        hostBypassesProxy host patterns = hostBypassesProxy (host ++ ['.']) patterns := by
  have bare : hostBypassesProxy "10.0.0.1".toList ["10.0.0.0/8".toList] = true := by
    decide +kernel
  have dotted : hostBypassesProxy "10.0.0.1.".toList ["10.0.0.0/8".toList] = false := by
    decide +kernel
  refine ⟨bare, dotted, by decide +kernel, by decide +kernel, fun same => ?_⟩
  have equal := same "10.0.0.1".toList ["10.0.0.0/8".toList] (by decide) tenOne_uriHost
  rw [bare] at equal
  exact absurd (equal.trans dotted) (by decide)

end Blasthttp
