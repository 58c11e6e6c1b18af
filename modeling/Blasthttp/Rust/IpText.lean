/-
# Blasthttp.Rust.IpText -- the texts that parse as an address

What every reader of the address parser takes consists of hexadecimal digits, colons
and dots, and does not end in a dot (`Consumed`); the numbers they make are in range.  So no
address ends in a dot or starts with a bracket, and one text is not an address of both
kinds.
-/
import Blasthttp.Rust.IpAddr

namespace Blasthttp.Rust.IpAddr

set_option autoImplicit false

def isAddressChar (c : Char) : Bool := (toDigit 16 c).isSome || c = ':' || c = '.'

theorem isAddressChar_range {c : Char} (inside : isAddressChar c = true) :
    46 ≤ c.toNat ∧ c.toNat ≤ 122 := by
  simp only [isAddressChar, Bool.or_eq_true, decide_eq_true_eq] at inside
  rcases inside with (digit | rfl) | rfl
  · have ranges : ('0' ≤ c ∧ c ≤ '9') ∨ ('a' ≤ c ∧ c ≤ 'z') ∨ ('A' ≤ c ∧ c ≤ 'Z') := by
      by_contra other
      rw [not_or, not_or] at other
      simp only [toDigit, other, if_false] at digit
      cases digit
    have le : ∀ {a b : Char}, a ≤ b → a.toNat ≤ b.toNat := fun h => h
    rcases ranges with ⟨low, high⟩ | ⟨low, high⟩ | ⟨low, high⟩
    · exact ⟨(show 46 ≤ 48 by decide).trans (le low), (le high).trans (by decide)⟩
    · exact ⟨(show 46 ≤ 97 by decide).trans (le low), (le high).trans (by decide)⟩
    · exact ⟨(show 46 ≤ 65 by decide).trans (le low), (le high).trans (by decide)⟩
  · decide
  · decide

/-- White space is in no address. -/
theorem isAddressChar_solid {c : Char} (inside : isAddressChar c = true) :
    isWhitespace c = false := by
  obtain ⟨low, high⟩ := isAddressChar_range inside
  simp only [isWhitespace, Bool.or_eq_false_iff, Bool.and_eq_false_iff, decide_eq_false_iff_not]
  omega
/-- `rest` is left of `s` behind address characters, the last of them no dot. -/
def Consumed (s rest : Str) : Prop :=
  ∃ front c, s = front ++ c :: rest ∧ (∀ d ∈ front, isAddressChar d = true) ∧
    isAddressChar c = true ∧ c ≠ '.'

theorem Consumed.cons {c : Char} {s rest : Str} (inside : isAddressChar c = true)
    (consumed : Consumed s rest) : Consumed (c :: s) rest := by
  obtain ⟨front, d, rfl, chars, last, other⟩ := consumed
  refine ⟨c :: front, d, rfl, ?_, last, other⟩
  intro e there
  rcases List.mem_cons.mp there with rfl | later
  · exact inside
  · exact chars e later

theorem Consumed.trans {s t rest : Str} (first : Consumed s t) (second : Consumed t rest) :
    Consumed s rest := by
  obtain ⟨front, c, rfl, chars, last, -⟩ := first
  obtain ⟨back, d, rfl, chars', last', other⟩ := second
  refine ⟨front ++ c :: back, d, by simp, ?_, last', other⟩
  intro e there
  rcases List.mem_append.mp there with early | late
  · exact chars e early
  · rcases List.mem_cons.mp late with rfl | later
    · exact last
    · exact chars' e later

theorem Consumed.one {c : Char} (inside : isAddressChar c = true) (other : c ≠ '.') (rest : Str) :
    Consumed (c :: rest) rest :=
  ⟨[], c, rfl, by simp, inside, other⟩

/-! ## The readers -/

theorem readGivenChar_eq_some {c : Char} {s rest : Str} :
    readGivenChar c s = some rest ↔ s = c :: rest := by
  cases s with
  | nil => simp [readGivenChar]
  | cons d s => simp [readGivenChar]

theorem toDigit_weaken {c : Char} (digit : (toDigit 10 c).isSome = true) :
    (toDigit 16 c).isSome = true := by
  obtain ⟨v, found⟩ := Option.isSome_iff_exists.mp digit
  unfold toDigit at found ⊢
  simp only at found ⊢
  split at found
  · rename_i value read
    split at found
    · rename_i small
      rw [if_pos (show value < 16 by omega)]
      rfl
    · cases found
  · cases found

theorem readNumber_spec {radix maxDigits bound n : Nat} {zeros : Bool} {s rest : Str}
    (radixes : radix = 10 ∨ radix = 16)
    (read : readNumber radix maxDigits bound zeros s = some (n, rest)) :
    Consumed s rest ∧ n < bound := by
  simp only [readNumber] at read
  split at read
  · cases read
  · rename_i sized
    split at read
    · cases read
    · split at read
      · cases read
      · rename_i small
        cases read
        have digits : ∀ c ∈ s.takeWhile fun c => (toDigit radix c).isSome,
            isAddressChar c = true ∧ c ≠ '.' := by
          intro c there
          have digit := List.mem_takeWhile_imp there
          have hex : (toDigit 16 c).isSome = true := by
            rcases radixes with rfl | rfl
            · exact toDigit_weaken digit
            · exact digit
          refine ⟨by simp [isAddressChar, hex], ?_⟩
          rintro rfl
          exact absurd hex (by decide)
        have nonempty : s.takeWhile (fun c => (toDigit radix c).isSome) ≠ [] := by
          intro empty
          simp [empty] at sized
        obtain ⟨front, c, split⟩ := List.eq_nil_or_concat _ |>.resolve_left nonempty
        rw [List.concat_eq_append] at split
        refine ⟨⟨front, c, ?_, ?_, ?_, ?_⟩, Nat.lt_of_not_le small⟩
        · have whole := List.prefix_iff_eq_append.mp
            (s.takeWhile_prefix fun c => (toDigit radix c).isSome)
          rw [← List.singleton_append, ← List.append_assoc, ← split]
          exact whole.symm
        · intro d there
          exact (digits d (by rw [split]; simp [there])).1
        · exact (digits c (by rw [split]; simp)).1
        · exact (digits c (by rw [split]; simp)).2

theorem readGivenChar_consumed {c : Char} {s t rest : Str} (inside : isAddressChar c = true)
    (read : readGivenChar c s = some t) (consumed : Consumed t rest) : Consumed s rest := by
  rw [readGivenChar_eq_some.mp read]
  exact consumed.cons inside

theorem readIpv4_spec {s rest : Str} {bits : Nat} (read : readIpv4 s = some (bits, rest)) :
    Consumed s rest ∧ bits < 2 ^ 32 := by
  simp only [readIpv4, Option.bind_eq_bind, Option.bind_eq_some_iff, Prod.exists] at read
  obtain ⟨a, s₁, first, s₂, dot₁, b, s₃, second, s₄, dot₂, c, s₅, third, s₆, dot₃, d, s₇, fourth,
    same⟩ := read
  cases same
  obtain ⟨consumed₁, small₁⟩ := readNumber_spec (.inl rfl) first
  obtain ⟨consumed₂, small₂⟩ := readNumber_spec (.inl rfl) second
  obtain ⟨consumed₃, small₃⟩ := readNumber_spec (.inl rfl) third
  obtain ⟨consumed₄, small₄⟩ := readNumber_spec (.inl rfl) fourth
  have isDot : isAddressChar '.' = true := by decide
  have last₃ := consumed₃.trans (readGivenChar_consumed isDot dot₃ consumed₄)
  have last₂ := consumed₂.trans (readGivenChar_consumed isDot dot₂ last₃)
  refine ⟨consumed₁.trans (readGivenChar_consumed isDot dot₁ last₂), ?_⟩
  omega

/-- Either no group was read, or characters of an address were. -/
structure GroupsRead (s : Str) (left : Nat) (groups : List Nat) (rest : Str) : Prop where
  taken : groups = [] ∧ rest = s ∨ Consumed s rest
  short : groups.length ≤ left
  small : ∀ group ∈ groups, group < 65536

theorem GroupsRead.nothing (s : Str) (left : Nat) : GroupsRead s left [] s where
  taken := .inl ⟨rfl, rfl⟩
  short := Nat.zero_le _
  small := by simp

/-- The colon in front of every group but the first. -/
theorem entry_consumed {s t rest : Str} {first : Prop} [Decidable first]
    (entry : (if first then some s else readGivenChar ':' s) = some t)
    (consumed : Consumed t rest) : Consumed s rest := by
  split at entry
  · cases entry
    exact consumed
  · exact readGivenChar_consumed (by decide) entry consumed

theorem readGroups_spec {limit left : Nat} {s rest : Str} {groups : List Nat} {embedded : Bool}
    (read : readGroups limit left s = (groups, embedded, rest)) :
    GroupsRead s left groups rest := by
  induction left generalizing s groups embedded rest with
  | zero =>
      cases read
      exact .nothing s 0
  | succ left ih =>
      simp only [readGroups] at read
      split at read
      · -- an embedded IPv4 address
        rename_i quad behind found
        cases read
        split at found
        · rename_i room
          obtain ⟨t, entry, quadRead⟩ := Option.bind_eq_some_iff.mp found
          obtain ⟨consumed, small⟩ := readIpv4_spec quadRead
          refine ⟨.inr (entry_consumed entry consumed), ?_, ?_⟩
          · simp only [List.length_cons, List.length_nil]
            omega
          · intro group there
            rcases List.mem_cons.mp there with rfl | there
            · omega
            · rw [List.mem_singleton.mp there]
              omega
        · cases found
      · split at read
        · cases read
          exact .nothing s (left + 1)
        · rename_i group behind found
          obtain ⟨t, entry, numberRead⟩ := Option.bind_eq_some_iff.mp found
          obtain ⟨consumed, small⟩ := readNumber_spec (.inr rfl) numberRead
          have here := entry_consumed entry consumed
          cases later : readGroups limit left behind with
          | mk more tail =>
              obtain ⟨embedded', behind'⟩ := tail
              rw [later] at read
              cases read
              have inner := ih later
              refine ⟨.inr ?_, Nat.succ_le_succ inner.short, ?_⟩
              · rcases inner.taken with ⟨-, rfl⟩ | more
                · exact here
                · exact here.trans more
              · intro g there
                rcases List.mem_cons.mp there with rfl | there
                · exact small
                · exact inner.small g there

/-- Groups of 16 bits fill their share of an address. -/
theorem ofGroups_lt {groups : List Nat} (small : ∀ group ∈ groups, group < 65536) :
    ofGroups groups < 65536 ^ groups.length := by
  have folds : ∀ {groups : List Nat} (before : Nat), (∀ group ∈ groups, group < 65536) →
      groups.foldl (fun n group => 65536 * n + group) before <
        (before + 1) * 65536 ^ groups.length := by
    intro groups
    induction groups with
    | nil =>
        intro before small
        simp
    | cons group groups ih =>
        intro before small
        have here := small group List.mem_cons_self
        calc groups.foldl (fun n group => 65536 * n + group) (65536 * before + group)
            < (65536 * before + group + 1) * 65536 ^ groups.length :=
              ih _ fun g there => small g (List.mem_cons_of_mem _ there)
          _ ≤ ((before + 1) * 65536) * 65536 ^ groups.length := Nat.mul_le_mul_right _ (by omega)
          _ = (before + 1) * 65536 ^ (group :: groups).length := by
              rw [List.length_cons, Nat.pow_succ', Nat.mul_assoc]
  simpa [ofGroups] using folds 0 small

/-- The groups in front of `::`, zeros, and those behind it. -/
theorem ofGroups_joined {head groups : List Nat} (headSmall : ∀ group ∈ head, group < 65536)
    (groupsSmall : ∀ group ∈ groups, group < 65536) (fits : head.length + groups.length ≤ 8) :
    ofGroups (head ++ List.replicate (8 - head.length - groups.length) 0 ++ groups) < 2 ^ 128 := by
  have range : (65536 : Nat) ^ 8 = 2 ^ 128 := by decide
  have size : (head ++ List.replicate (8 - head.length - groups.length) 0 ++
      groups).length = 8 := by
    simp only [List.length_append, List.length_replicate]
    omega
  have bound : ofGroups (head ++ List.replicate (8 - head.length - groups.length) 0 ++ groups) <
      65536 ^ (head ++ List.replicate (8 - head.length - groups.length) 0 ++ groups).length := by
    apply ofGroups_lt
    intro group there
    rw [List.mem_append, List.mem_append] at there
    rcases there with (early | zero) | late
    · exact headSmall group early
    · rw [List.eq_of_mem_replicate zero]
      decide
    · exact groupsSmall group late
  rwa [size, range] at bound

theorem readIpv6_spec {s rest : Str} {bits : Nat} (read : readIpv6 s = some (bits, rest)) :
    Consumed s rest ∧ bits < 2 ^ 128 := by
  have colon : isAddressChar ':' = true := by decide
  have range : (65536 : Nat) ^ 8 = 2 ^ 128 := by decide
  simp only [readIpv6] at read
  cases first : readGroups 8 8 s with
  | mk head tail =>
      obtain ⟨embedded, behind⟩ := tail
      have front := readGroups_spec first
      rw [first] at read
      simp only at read
      split at read
      · rename_i full
        cases read
        refine ⟨?_, ?_⟩
        · rcases front.taken with ⟨rfl, -⟩ | consumed
          · cases full
          · exact consumed
        · have small := ofGroups_lt front.small
          rwa [full, range] at small
      · split at read
        · cases read
        · simp only [Option.bind_eq_bind, Option.bind_eq_some_iff] at read
          obtain ⟨t, colon₁, u, colon₂, same⟩ := read
          cases second : readGroups (8 - (head.length + 1)) (8 - (head.length + 1)) u with
          | mk groups tail =>
              obtain ⟨embedded', behind'⟩ := tail
              have back := readGroups_spec second
              rw [second] at same
              cases same
              have here : Consumed t behind' := by
                rw [readGivenChar_eq_some.mp colon₂]
                rcases back.taken with ⟨-, rfl⟩ | consumed
                · exact .one colon (by decide) _
                · exact consumed.cons colon
              have above : Consumed behind behind' := readGivenChar_consumed colon colon₁ here
              refine ⟨?_, ?_⟩
              · rcases front.taken with ⟨-, rfl⟩ | consumed
                · exact above
                · exact consumed.trans above
              · apply ofGroups_joined front.small back.small
                have most := front.short
                have short := back.short
                omega

/-! ## Addresses -/

/-- Every character is one of an address, and the last is no dot. -/
structure AddressText (s : Str) : Prop where
  chars : ∀ c ∈ s, isAddressChar c = true
  last : ∃ front c, s = front ++ [c] ∧ c ≠ '.'

theorem Consumed.text {s : Str} (consumed : Consumed s []) : AddressText s := by
  obtain ⟨front, c, rfl, chars, last, other⟩ := consumed
  refine ⟨?_, front, c, rfl, other⟩
  intro d there
  rcases List.mem_append.mp there with early | late
  · exact chars d early
  · rw [List.mem_singleton.mp late]
    exact last

theorem parseV4_eq_some {s : Str} {bits : Nat} : parseV4 s = some bits ↔ readIpv4 s = some (bits, []) := by
  unfold parseV4
  cases readIpv4 s with
  | none => simp
  | some pair =>
      obtain ⟨n, rest⟩ := pair
      simp [and_comm]

theorem parseV6_eq_some {s : Str} {bits : Nat} : parseV6 s = some bits ↔ readIpv6 s = some (bits, []) := by
  unfold parseV6
  cases readIpv6 s with
  | none => simp
  | some pair =>
      obtain ⟨n, rest⟩ := pair
      simp [and_comm]

theorem parse_eq_v4 {s : Str} {bits : Nat} : parse s = some (.v4 bits) ↔ parseV4 s = some bits := by
  rw [parseV4_eq_some]
  unfold parse
  cases readIpv4 s with
  | none =>
      cases readIpv6 s with
      | none => simp
      | some pair => simp
  | some pair =>
      obtain ⟨n, rest⟩ := pair
      simp [and_comm]

/-- No IPv6 address starts with an IPv4 one. -/
theorem readIpv4_of_v6 {s : Str} {bits : Nat} (address : parseV6 s = some bits) :
    readIpv4 s = none := by
  rw [parseV6_eq_some] at address
  cases first : readIpv4 s with
  | none => rfl
  | some quad =>
      obtain ⟨n, rest⟩ := quad
      simp [readIpv6, readGroups, first] at address

theorem parse_eq_v6 {s : Str} {bits : Nat} :
    parse s = some (.v6 bits) ↔ parseV6 s = some bits := by
  have either : parse s = some (.v6 bits) ↔ readIpv4 s = none ∧ parseV6 s = some bits := by
    rw [parseV6_eq_some]
    unfold parse
    cases readIpv4 s with
    | none =>
        cases readIpv6 s with
        | none => simp
        | some pair =>
            obtain ⟨n, rest⟩ := pair
            simp [and_comm]
    | some pair => simp
  rw [either, and_iff_right_iff_imp]
  exact readIpv4_of_v6

/-- The number of bits of an address. -/
def width : IpAddr → Nat
  | .v4 _ => 32
  | .v6 _ => 128

def bits : IpAddr → Nat
  | .v4 n => n
  | .v6 n => n

theorem parse_text {s : Str} {ip : IpAddr} (parsed : parse s = some ip) : AddressText s := by
  cases ip with
  | v4 bits => exact (readIpv4_spec (parseV4_eq_some.mp (parse_eq_v4.mp parsed))).1.text
  | v6 bits => exact (readIpv6_spec (parseV6_eq_some.mp (parse_eq_v6.mp parsed))).1.text

theorem parse_lt {s : Str} {ip : IpAddr} (parsed : parse s = some ip) :
    ip.bits < 2 ^ ip.width := by
  cases ip with
  | v4 bits => exact (readIpv4_spec (parseV4_eq_some.mp (parse_eq_v4.mp parsed))).2
  | v6 bits => exact (readIpv6_spec (parseV6_eq_some.mp (parse_eq_v6.mp parsed))).2

theorem parse_dotted (s : Str) : parse (s ++ ['.']) = none := by
  cases parsed : parse (s ++ ['.']) with
  | none => rfl
  | some ip =>
      obtain ⟨front, c, same, other⟩ := (parse_text parsed).last
      exact absurd (List.append_inj' same rfl).2 (by simpa using other.symm)

theorem parse_bracket (s : Str) : parse ('[' :: s) = none := by
  cases parsed : parse ('[' :: s) with
  | none => rfl
  | some ip => exact absurd ((parse_text parsed).chars '[' List.mem_cons_self) (by decide)

end Blasthttp.Rust.IpAddr
