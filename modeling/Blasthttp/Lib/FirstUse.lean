/-
# Blasthttp.Lib.FirstUse -- items that answer in turn

Items are added one after the other and keep their numbers.  A request is answered by the
first of the matching items that was never used, and if there is none by the matching item
that was used first (`Fair`).  Two queues do this without knowing a number or a history:
one holds what was never used, the other what was, in the order of the first uses
(`Tracks.ask`).
-/
import Mathlib.Data.List.Perm.Basic
import Mathlib.Data.List.Range
import Mathlib.Data.Option.Basic
import Mathlib.Data.List.Induction
import Mathlib.Tactic.Common

namespace Blasthttp.Lib.FirstUse

set_option autoImplicit false

variable {α β ρ : Type}

/-! ## Two queues -/

structure Queues (α : Type) where
  fresh : List α
  used : List α

namespace Queues

def add (q : Queues α) (a : α) : Queues α := { q with fresh := q.fresh ++ [a] }

/-- The first match is taken out of the fresh ones and put behind the used ones; a match
among the used ones stays where it is. -/
def ask (p : α → ρ → Bool) (q : Queues α) (r : ρ) : Queues α × Option α :=
  match q.fresh.find? fun a => p a r with
  | some a => (⟨q.fresh.eraseP fun a => p a r, q.used ++ [a]⟩, some a)
  | none => (q, q.used.find? fun a => p a r)

def map (f : α → β) (q : Queues α) : Queues β := ⟨q.fresh.map f, q.used.map f⟩

theorem map_add (f : α → β) (q : Queues α) (a : α) : (q.add a).map f = (q.map f).add (f a) := by
  simp [map, add]

/-- Where only an image decides, the queues of the images answer alike. -/
theorem map_ask (f : α → β) (p : β → ρ → Bool) (q : Queues α) (r : ρ) :
    (q.map f).ask p r =
      ((q.ask (fun a => p (f a)) r).1.map f, (q.ask (fun a => p (f a)) r).2.map f) := by
  have first : (q.fresh.map f).find? (fun b => p b r) = (q.fresh.find? fun a => p (f a) r).map f := by
    rw [List.find?_map]
    rfl
  have rest : (q.used.map f).find? (fun b => p b r) = (q.used.find? fun a => p (f a) r).map f := by
    rw [List.find?_map]
    rfl
  simp only [ask, map, first, rest]
  cases q.fresh.find? fun a => p (f a) r with
  | none => rfl
  | some a =>
      simp only [Option.map_some, List.map_append, List.map_cons, List.map_nil, List.eraseP_map]
      rfl

/-- What asking can do. -/
theorem ask_cases (p : α → ρ → Bool) (q : Queues α) (r : ρ) :
    (∃ front a back, q.fresh = front ++ a :: back ∧ p a r = true ∧
      (∀ b ∈ front, p b r = false) ∧
      q.ask p r = (⟨front ++ back, q.used ++ [a]⟩, some a)) ∨
    (∃ front a back, q.used = front ++ a :: back ∧ p a r = true ∧
      (∀ b ∈ front, p b r = false) ∧ (∀ b ∈ q.fresh, p b r = false) ∧
      q.ask p r = (q, some a)) ∨
    ((∀ b ∈ q.fresh, p b r = false) ∧ (∀ b ∈ q.used, p b r = false) ∧
      q.ask p r = (q, none)) := by
  rw [ask]
  cases first : q.fresh.find? fun a => p a r with
  | some a =>
      obtain ⟨holds, front, back, split, before⟩ := List.find?_eq_some_iff_append.mp first
      have before : ∀ b ∈ front, p b r = false := by simpa using before
      refine .inl ⟨front, a, back, split, holds, before, ?_⟩
      have left : (front ++ a :: back).eraseP (fun a => p a r) = front ++ back := by
        rw [List.eraseP_append_right _ (by simpa using before)]
        simp [holds]
      simp only [split, left]
  | none =>
      have stale : ∀ b ∈ q.fresh, p b r = false := by simpa using List.find?_eq_none.mp first
      cases again : q.used.find? fun a => p a r with
      | some a =>
          obtain ⟨holds, front, back, split, before⟩ := List.find?_eq_some_iff_append.mp again
          exact .inr (.inl ⟨front, a, back, split, holds, by simpa using before, stale, rfl⟩)
      | none =>
          exact .inr (.inr ⟨stale, by simpa using List.find?_eq_none.mp again, rfl⟩)

end Queues

/-! ## Histories -/

inductive Event (α ρ : Type) where
  | add (a : α)
  | ask (r : ρ)

/-- What happened: an item came, or a request was answered by the item of a number. -/
inductive Entry (α ρ : Type) where
  | added (a : α)
  | asked (r : ρ) (answer : Option (Nat × α))

def Entry.event : Entry α ρ → Event α ρ
  | .added a => .add a
  | .asked r _ => .ask r

def Entry.item? : Entry α ρ → Option α
  | .added a => some a
  | .asked _ _ => none

def Entry.number? : Entry α ρ → Option Nat
  | .added _ => none
  | .asked _ answer => answer.map Prod.fst

/-- The items by number. -/
def added (past : List (Entry α ρ)) : List α := past.filterMap Entry.item?

/-- The numbers that answered, one for each answer. -/
def served (past : List (Entry α ρ)) : List Nat := past.filterMap Entry.number?

def Matching (p : α → ρ → Bool) (past : List (Entry α ρ)) (r : ρ) (i : Nat) : Prop :=
  ∃ a, (added past)[i]? = some a ∧ p a r = true

/-- A matching item that has answered nothing yet. -/
def Waiting (p : α → ρ → Bool) (past : List (Entry α ρ)) (r : ρ) (i : Nat) : Prop :=
  Matching p past r i ∧ i ∉ served past

/-- An answer that is due, after what happened. -/
structure Fair (p : α → ρ → Bool) (past : List (Entry α ρ)) (r : ρ)
    (answer : Option (Nat × α)) : Prop where
  answered : answer.isSome ↔ ∃ a ∈ added past, p a r = true
  item : ∀ i a, answer = some (i, a) → (added past)[i]? = some a ∧ p a r = true
  /-- The first one that waits, if one does. -/
  waiting : ∀ i a, answer = some (i, a) → (∃ j, Waiting p past r j) →
    Waiting p past r i ∧ ∀ j, Waiting p past r j → i ≤ j
  /-- Otherwise the one that was used first. -/
  again : ∀ i a, answer = some (i, a) → (¬ ∃ j, Waiting p past r j) →
    i ∈ served past ∧ ∀ j, Matching p past r j → (served past).idxOf i ≤ (served past).idxOf j

/-- The histories in which every answer was due. -/
inductive Course (p : α → ρ → Bool) : List (Entry α ρ) → Prop where
  | start : Course p []
  | add {past : List (Entry α ρ)} (a : α) (earlier : Course p past) :
      Course p (past ++ [.added a])
  | ask {past : List (Entry α ρ)} {r : ρ} {answer : Option (Nat × α)} (earlier : Course p past)
      (fair : Fair p past r answer) : Course p (past ++ [.asked r answer])

variable {p : α → ρ → Bool} {past : List (Entry α ρ)}

@[simp] theorem added_concat_added (a : α) : added (past ++ [.added a]) = added past ++ [a] := by
  simp [added, Entry.item?]

@[simp] theorem added_concat_asked (r : ρ) (answer : Option (Nat × α)) :
    added (past ++ [.asked r answer]) = added past := by
  simp [added, Entry.item?]

@[simp] theorem served_concat_added (a : α) : served (past ++ [.added a]) = served past := by
  simp [served, Entry.number?]

@[simp] theorem served_concat_asked (r : ρ) (answer : Option (Nat × α)) :
    served (past ++ [.asked r answer]) = served past ++ (answer.map Prod.fst).toList := by
  cases answer <;> simp [served, Entry.number?]

/-- Only one answer is due. -/
theorem Fair.unique {r : ρ} {x y : Option (Nat × α)} (one : Fair p past r x)
    (two : Fair p past r y) : x = y := by
  have both : x.isSome ↔ y.isSome := one.answered.trans two.answered.symm
  cases x with
  | none =>
      cases y with
      | none => rfl
      | some y => simp at both
  | some x =>
      cases y with
      | none => simp at both
      | some y =>
          obtain ⟨i, a⟩ := x
          obtain ⟨j, b⟩ := y
          obtain ⟨hereA, holdsA⟩ := one.item i a rfl
          obtain ⟨hereB, holdsB⟩ := two.item j b rfl
          have same : i = j := by
            by_cases waits : ∃ k, Waiting p past r k
            · obtain ⟨waitsI, firstI⟩ := one.waiting i a rfl waits
              obtain ⟨waitsJ, firstJ⟩ := two.waiting j b rfl waits
              exact le_antisymm (firstI j waitsJ) (firstJ i waitsI)
            · obtain ⟨usedI, firstI⟩ := one.again i a rfl waits
              obtain ⟨usedJ, firstJ⟩ := two.again j b rfl waits
              have places := le_antisymm (firstI j ⟨b, hereB, holdsB⟩) (firstJ i ⟨a, hereA, holdsA⟩)
              exact (List.idxOf_inj usedI).mp places
          subst same
          rw [hereA] at hereB
          cases hereB
          rfl

theorem event_concat {other : List (Entry α ρ)} {x y : Entry α ρ}
    (same : (past ++ [x]).map Entry.event = (other ++ [y]).map Entry.event) :
    past.map Entry.event = other.map Entry.event ∧ x.event = y.event := by
  simp only [List.map_append, List.map_cons, List.map_nil] at same
  obtain ⟨front, last⟩ := List.append_inj' same rfl
  exact ⟨front, List.singleton_inj.mp last⟩

/-- The events decide the history. -/
theorem Course.unique {other : List (Entry α ρ)} (one : Course p past) (two : Course p other)
    (same : past.map Entry.event = other.map Entry.event) : past = other := by
  induction one generalizing other with
  | start =>
      rw [List.map_nil, eq_comm, List.map_eq_nil_iff] at same
      exact same.symm
  | @add past a earlier ih =>
      cases two with
      | start => simp at same
      | @add other b earlier' =>
          obtain ⟨front, last⟩ := event_concat same
          cases last
          rw [ih earlier' front]
      | @ask other r answer earlier' fair => cases (event_concat same).2
  | @ask past r answer earlier fair ih =>
      cases two with
      | start => simp at same
      | @add other b earlier' => cases (event_concat same).2
      | @ask other r' answer' earlier' fair' =>
          obtain ⟨front, last⟩ := event_concat same
          cases last
          have before := ih earlier' front
          subst before
          rw [fair.unique fair']

/-! ## The queues of a history -/

/-- What comes behind the first of an ordered list. -/
theorem eq_or_rel_of_first {γ : Type} {R : γ → γ → Prop} {list front back : List γ} {x y : γ}
    (split : list = front ++ x :: back) (order : list.Pairwise R) (there : y ∈ list)
    (skipped : y ∉ front) : y = x ∨ R x y := by
  rw [split] at order there
  rcases List.mem_append.mp there with early | rest
  · exact absurd early skipped
  · rcases List.mem_cons.mp rest with same | behind
    · exact .inl same
    · exact .inr (List.rel_of_pairwise_cons (List.pairwise_append.mp order).2.1 behind)

/-- Queues of numbered items that stand where a history has brought them. -/
structure Numbered (past : List (Entry α ρ)) (q : Queues (Nat × α)) : Prop where
  item : ∀ x ∈ q.fresh ++ q.used, (added past)[x.1]? = some x.2
  all : ((q.fresh ++ q.used).map Prod.fst).Perm (List.range (added past).length)
  order : q.fresh.Pairwise fun x y => x.1 < y.1
  used : ∀ i, i ∈ q.used.map Prod.fst ↔ i ∈ served past
  firsts : q.used.Pairwise fun x y => (served past).idxOf x.1 < (served past).idxOf y.1

namespace Numbered

variable {q : Queues (Nat × α)}

theorem start : Numbered ([] : List (Entry α ρ)) ⟨[], []⟩ where
  item := by simp
  all := by simp [added]
  order := .nil
  used := by simp [served]
  firsts := .nil

theorem lt_length (numbered : Numbered past q) {x : Nat × α} (there : x ∈ q.fresh ++ q.used) :
    x.1 < (added past).length := by
  have listed := numbered.all.mem_iff.mp (List.mem_map_of_mem there)
  exact List.mem_range.mp listed

/-- The items are those that were added, in another order. -/
theorem perm (numbered : Numbered past q) :
    ((q.fresh ++ q.used).map Prod.snd).Perm (added past) := by
  have read : (q.fresh ++ q.used).map (fun x => (added past)[x.1]?) =
      (q.fresh ++ q.used).map (fun x => some x.2) :=
    List.map_congr_left numbered.item
  have whole : (List.range (added past).length).map (fun i => (added past)[i]?) =
      (added past).map some := by
    apply List.ext_getElem (by simp)
    intro i h h'
    simp
  have somes : (((q.fresh ++ q.used).map Prod.snd).map some).Perm ((added past).map some) := by
    rw [← whole]
    have images := numbered.all.map fun i => (added past)[i]?
    rw [List.map_map] at images ⊢
    exact (List.Perm.of_eq read.symm).trans images
  exact (List.map_perm_map_iff (Option.some_injective α)).mp somes

theorem unused (numbered : Numbered past q) {x : Nat × α} (there : x ∈ q.fresh) :
    x.1 ∉ served past := by
  have distinct := numbered.all.nodup_iff.mpr List.nodup_range
  rw [List.map_append, List.nodup_append] at distinct
  intro again
  exact distinct.2.2 _ (List.mem_map_of_mem there) _ ((numbered.used _).mpr again) rfl

/-- Where a matching item stands. -/
theorem find (numbered : Numbered past q) {r : ρ} {j : Nat} (matching : Matching p past r j) :
    ∃ b, (j, b) ∈ q.fresh ++ q.used ∧ p b r = true := by
  obtain ⟨b, here, holds⟩ := matching
  have below := (List.getElem?_eq_some_iff.mp here).1
  obtain ⟨y, there, rfl⟩ := List.mem_map.mp (numbered.all.mem_iff.mpr (List.mem_range.mpr below))
  have item := numbered.item y there
  rw [here] at item
  cases item
  exact ⟨y.2, there, holds⟩

theorem matching (numbered : Numbered past q) {r : ρ} {x : Nat × α}
    (there : x ∈ q.fresh ++ q.used) (holds : p x.2 r = true) : Matching p past r x.1 :=
  ⟨x.2, numbered.item x there, holds⟩

theorem add (numbered : Numbered past q) (a : α) :
    Numbered (past ++ [.added a]) (q.add ((added past).length, a)) where
  item := by
    intro x there
    simp only [Queues.add, List.append_assoc, List.mem_append, List.mem_singleton] at there
    rw [added_concat_added]
    rcases there with early | rfl | late
    · have below := numbered.lt_length (List.mem_append_left _ early)
      rw [List.getElem?_append_left below]
      exact numbered.item x (List.mem_append_left _ early)
    · simp
    · have below := numbered.lt_length (List.mem_append_right _ late)
      rw [List.getElem?_append_left below]
      exact numbered.item x (List.mem_append_right _ late)
  all := by
    have moved : (q.fresh ++ [((added past).length, a)] ++ q.used).Perm
        (q.fresh ++ q.used ++ [((added past).length, a)]) := by
      rw [List.append_assoc, List.append_assoc]
      exact List.perm_append_comm.append_left q.fresh
    rw [added_concat_added, List.length_append, List.length_singleton, List.range_succ]
    refine (moved.map Prod.fst).trans ?_
    rw [List.map_append]
    exact numbered.all.append_right _
  order := by
    refine List.pairwise_append.mpr ⟨numbered.order, List.pairwise_singleton _ _, ?_⟩
    intro x there y last
    rw [List.mem_singleton.mp last]
    exact numbered.lt_length (List.mem_append_left _ there)
  used := by simpa [Queues.add] using numbered.used
  firsts := by simpa [Queues.add] using numbered.firsts

/-- Recording an answer leaves the first uses in their order. -/
theorem firsts_append (numbered : Numbered past q) (more : List Nat) :
    q.used.Pairwise fun x y =>
      (served past ++ more).idxOf x.1 < (served past ++ more).idxOf y.1 := by
  refine numbered.firsts.imp_of_mem ?_
  intro x y hereX hereY sooner
  have usedX := (numbered.used x.1).mp (List.mem_map_of_mem hereX)
  have usedY := (numbered.used y.1).mp (List.mem_map_of_mem hereY)
  rw [List.idxOf_append_of_mem usedX, List.idxOf_append_of_mem usedY]
  exact sooner

/-- A matching item that was never used has answered, the first of those that wait. -/
theorem firstUse_fair (numbered : Numbered past q) {r : ρ} {front back : List (Nat × α)}
    {x : Nat × α} (split : q.fresh = front ++ x :: back) (holds : p x.2 r = true)
    (before : ∀ y ∈ front, p y.2 r = false) : Fair p past r (some x) := by
  have fresh : x ∈ q.fresh := by simp [split]
  have there : x ∈ q.fresh ++ q.used := List.mem_append_left _ fresh
  have waits : Waiting p past r x.1 := ⟨numbered.matching there holds, numbered.unused fresh⟩
  have least : ∀ j, Waiting p past r j → x.1 ≤ j := by
    rintro j ⟨matching, never⟩
    obtain ⟨b, here, holdsB⟩ := numbered.find matching
    rcases List.mem_append.mp here with early | late
    · have skipped : (j, b) ∉ front := fun skipped => by simp [before _ skipped] at holdsB
      rcases eq_or_rel_of_first split numbered.order early skipped with rfl | sooner
      · exact le_refl j
      · exact sooner.le
    · exact absurd ((numbered.used j).mp (List.mem_map_of_mem late)) never
  constructor
  · exact iff_of_true rfl ⟨x.2, List.mem_of_getElem? (numbered.item x there), holds⟩
  · rintro i a ⟨⟩
    exact ⟨numbered.item _ there, holds⟩
  · rintro i a ⟨⟩ -
    exact ⟨waits, least⟩
  · intro i a _ none
    exact absurd ⟨x.1, waits⟩ none

/-- It goes to the end of the used ones. -/
theorem firstUse (numbered : Numbered past q) (r : ρ) {front back : List (Nat × α)}
    {x : Nat × α} (split : q.fresh = front ++ x :: back) :
    Numbered (past ++ [.asked r (some x)]) ⟨front ++ back, q.used ++ [x]⟩ := by
  have never : x.1 ∉ served past := numbered.unused (by simp [split])
  have moved : (front ++ back ++ (q.used ++ [x])).Perm (q.fresh ++ q.used) := by
    rw [split, ← List.append_assoc]
    refine (List.perm_append_singleton x _).trans ?_
    rw [List.append_assoc front back, List.append_assoc front, List.cons_append]
    exact List.perm_middle.symm
  constructor
  · intro y here
    rw [added_concat_asked]
    exact numbered.item y (moved.mem_iff.mp here)
  · rw [added_concat_asked]
    exact (moved.map Prod.fst).trans numbered.all
  · have order := numbered.order
    rw [split] at order
    exact order.sublist ((List.Sublist.refl front).append (List.sublist_cons_self x back))
  · intro i
    simp [← numbered.used]
  · rw [served_concat_asked]
    refine List.pairwise_append.mpr ⟨numbered.firsts_append _, List.pairwise_singleton _ _, ?_⟩
    intro y hereY z last
    have usedY := (numbered.used y.1).mp (List.mem_map_of_mem hereY)
    rw [List.mem_singleton.mp last, List.idxOf_append_of_mem usedY,
      List.idxOf_append_of_notMem never]
    exact lt_of_lt_of_le (List.idxOf_lt_length_of_mem usedY) (Nat.le_add_right _ _)

/-- Nothing waits, and the matching item that was used first has answered. -/
theorem furtherUse_fair (numbered : Numbered past q) {r : ρ} {front back : List (Nat × α)}
    {x : Nat × α} (split : q.used = front ++ x :: back) (holds : p x.2 r = true)
    (before : ∀ y ∈ front, p y.2 r = false) (stale : ∀ y ∈ q.fresh, p y.2 r = false) :
    Fair p past r (some x) := by
  have used : x ∈ q.used := by simp [split]
  have there : x ∈ q.fresh ++ q.used := List.mem_append_right _ used
  have among : ∀ j, Matching p past r j → ∃ b, (j, b) ∈ q.used ∧ p b r = true := by
    intro j matching
    obtain ⟨b, here, holdsB⟩ := numbered.find matching
    rcases List.mem_append.mp here with early | late
    · simp [stale _ early] at holdsB
    · exact ⟨b, late, holdsB⟩
  have none : ¬ ∃ j, Waiting p past r j := by
    rintro ⟨j, matching, never⟩
    obtain ⟨b, late, -⟩ := among j matching
    exact never ((numbered.used j).mp (List.mem_map_of_mem late))
  constructor
  · exact iff_of_true rfl ⟨x.2, List.mem_of_getElem? (numbered.item x there), holds⟩
  · rintro i a ⟨⟩
    exact ⟨numbered.item _ there, holds⟩
  · intro i a _ waits
    exact absurd waits none
  · rintro i a ⟨⟩ -
    refine ⟨(numbered.used i).mp (List.mem_map_of_mem used), ?_⟩
    intro j matching
    obtain ⟨b, late, holdsB⟩ := among j matching
    have skipped : (j, b) ∉ front := fun skipped => by simp [before _ skipped] at holdsB
    rcases eq_or_rel_of_first split numbered.firsts late skipped with same | sooner
    · cases same
      exact le_refl _
    · exact sooner.le

/-- The queues stay as they are when the answer is of the used ones. -/
theorem furtherUse (numbered : Numbered past q) (r : ρ) {x : Nat × α} (used : x ∈ q.used) :
    Numbered (past ++ [.asked r (some x)]) q := by
  have known : x.1 ∈ served past := (numbered.used x.1).mp (List.mem_map_of_mem used)
  constructor
  · rw [added_concat_asked]
    exact numbered.item
  · rw [added_concat_asked]
    exact numbered.all
  · exact numbered.order
  · intro i
    rw [numbered.used i, served_concat_asked, List.mem_append]
    constructor
    · exact .inl
    · rintro (early | last)
      · exact early
      · rw [List.mem_singleton.mp last]
        exact known
  · rw [served_concat_asked]
    exact numbered.firsts_append _

/-- No item matches. -/
theorem noUse_fair (numbered : Numbered past q) {r : ρ} (stale : ∀ y ∈ q.fresh, p y.2 r = false)
    (idle : ∀ y ∈ q.used, p y.2 r = false) : Fair p past r none := by
  have nobody : ¬ ∃ a ∈ added past, p a r = true := by
    rintro ⟨a, there, holds⟩
    obtain ⟨i, here⟩ := List.mem_iff_getElem?.mp there
    obtain ⟨b, place, holdsB⟩ := numbered.find ⟨a, here, holds⟩
    rcases List.mem_append.mp place with early | late
    · simp [stale _ early] at holdsB
    · simp [idle _ late] at holdsB
  exact ⟨iff_of_false (by simp) nobody, nofun, nofun, nofun⟩

theorem noUse (numbered : Numbered past q) (r : ρ) :
    Numbered (past ++ [.asked r none]) q where
  item := by simpa using numbered.item
  all := by simpa using numbered.all
  order := numbered.order
  used := by simpa using numbered.used
  firsts := by simpa using numbered.firsts

/-- Asking gives the answer that is due. -/
theorem ask (numbered : Numbered past q) (r : ρ) :
    Fair p past r (q.ask (fun x => p x.2) r).2 ∧
      Numbered (past ++ [.asked r (q.ask (fun x => p x.2) r).2])
        (q.ask (fun x => p x.2) r).1 := by
  rcases Queues.ask_cases (fun x : Nat × α => p x.2) q r with
    ⟨front, x, back, split, holds, before, asked⟩ |
    ⟨front, x, back, split, holds, before, stale, asked⟩ | ⟨stale, idle, asked⟩
  · rw [asked]
    exact ⟨numbered.firstUse_fair split holds before, numbered.firstUse r split⟩
  · rw [asked]
    exact ⟨numbered.furtherUse_fair split holds before stale,
      numbered.furtherUse r (by simp [split])⟩
  · rw [asked]
    exact ⟨numbered.noUse_fair stale idle, numbered.noUse r⟩

end Numbered

/-! ## Without numbers -/

/-- The queues stand where a fair history has brought them. -/
structure Tracks (p : α → ρ → Bool) (past : List (Entry α ρ)) (q : Queues α) : Prop where
  course : Course p past
  numbered : ∃ n, Numbered past n ∧ n.map Prod.snd = q

namespace Tracks

variable {q : Queues α}

theorem start : Tracks p ([] : List (Entry α ρ)) ⟨[], []⟩ :=
  ⟨.start, ⟨[], []⟩, Numbered.start, rfl⟩

/-- Nothing is lost and nothing is there twice. -/
theorem perm (tracks : Tracks p past q) : (q.fresh ++ q.used).Perm (added past) := by
  obtain ⟨n, numbered, same⟩ := tracks.numbered
  rw [← same]
  simpa [Queues.map] using numbered.perm

theorem add (tracks : Tracks p past q) (a : α) : Tracks p (past ++ [.added a]) (q.add a) := by
  obtain ⟨n, numbered, same⟩ := tracks.numbered
  refine ⟨tracks.course.add a, _, numbered.add a, ?_⟩
  rw [Queues.map_add, same]

theorem ask (tracks : Tracks p past q) (r : ρ) : ∃ answer : Option (Nat × α),
    (q.ask p r).2 = answer.map Prod.snd ∧
      Tracks p (past ++ [.asked r answer]) (q.ask p r).1 := by
  obtain ⟨n, numbered, same⟩ := tracks.numbered
  obtain ⟨fair, next⟩ := @Numbered.ask _ _ p _ _ numbered r
  have asked := Queues.map_ask Prod.snd p n r
  rw [same] at asked
  refine ⟨(n.ask (fun x => p x.2) r).2, ?_, tracks.course.ask fair, _, next, ?_⟩
  · rw [asked]
  · rw [asked]

end Tracks

end Blasthttp.Lib.FirstUse
