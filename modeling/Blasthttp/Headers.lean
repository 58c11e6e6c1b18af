/-
# Blasthttp.Headers -- the case-insensitive headers of the Python API

A `PyHeaders` has two halves, the list it was given and a map for direct lookups.  The map
has no order of its own, so what is read off it by iterating is a multiset.  Every edit
changes both halves, each by a comparison of its own, and they never part
(`headers_consistent`): whatever is asked, the answer is what `items` implies.
-/
import Blasthttp.Rust.Str
import Blasthttp.Lib.LastValue

namespace Blasthttp

open Rust Lib.LastValue

set_option autoImplicit false

structure PyHeaders where
  /-- Order, casing and duplicates as they came. -/
  list : List (Str × Str)
  /-- Lower-case key to the last value. -/
  lookup : Finmap fun _ : Str => Str

/-- `PyKeyError::new_err(key)`. -/
structure KeyError where
  key : Str
  deriving DecidableEq

namespace PyHeaders

def fromList (list : List (Str × Str)) : PyHeaders where
  list := list
  lookup :=
    list.foldl (fun lookup entry => lookup.insert (toAsciiLowercase entry.1) entry.2) ∅

def new (headers : Option (List (Str × Str))) : PyHeaders := fromList (headers.getD [])

def getitem (h : PyHeaders) (key : Str) : Except KeyError Str :=
  match h.lookup.lookup (toAsciiLowercase key) with
  | some value => .ok value
  | none => .error ⟨key⟩

def setitem (h : PyHeaders) (key value : Str) : PyHeaders where
  list := h.list.filter (fun entry => !eqIgnoreAsciiCase entry.1 key) ++ [(key, value)]
  lookup := h.lookup.insert (toAsciiLowercase key) value

/-- The key is taken out of the map first, and the list is left alone if it was not there. -/
def delitem (h : PyHeaders) (key : Str) : PyHeaders × Except KeyError Unit :=
  match h.lookup.extract (toAsciiLowercase key) with
  | (none, lookup) => ({ h with lookup := lookup }, .error ⟨key⟩)
  | (some _, lookup) =>
      ({ list := h.list.filter fun entry => !eqIgnoreAsciiCase entry.1 key
         lookup := lookup }, .ok ())

def contains (h : PyHeaders) (key : Str) : Bool := toAsciiLowercase key ∈ h.lookup

def len (h : PyHeaders) : Nat := Multiset.card h.lookup.entries

def items (h : PyHeaders) : List (Str × Str) := h.list

def keys (h : PyHeaders) : Multiset Str := h.lookup.entries.map fun entry => entry.1

def values (h : PyHeaders) : Multiset Str := h.lookup.entries.map fun entry => entry.2

/-- A header's value, or the default the caller passed. -/
def get {Object : Type} (h : PyHeaders) (key : Str) (default : Option Object) :
    Option (Str ⊕ Object) :=
  match h.lookup.lookup (toAsciiLowercase key) with
  | some value => some (.inl value)
  | none => default.map .inr

/-! ## Edits -/

inductive Edit where
  | set (key value : Str)
  | delete (key : Str)

def edit (h : PyHeaders) : Edit → PyHeaders
  | .set key value => h.setitem key value
  | .delete key => (h.delitem key).1

/-- The object after any sequence of edits, those that raise included. -/
def edits (h : PyHeaders) (list : List Edit) : PyHeaders := list.foldl edit h

/-! ## The two halves -/

/-- The name a header goes by. -/
def nameOf (entry : Str × Str) : Str := toAsciiLowercase entry.1

/-- The value of the last entry of a name in any case. -/
def lastValue (key : Str) (items : List (Str × Str)) : Option Str :=
  last nameOf Prod.snd (toAsciiLowercase key) items

/-- Whether an entry goes by the name. -/
def goesBy (key : Str) (entry : Str × Str) : Bool := eqIgnoreAsciiCase entry.1 key

theorem goesBy_eq (key : Str) (entry : Str × Str) :
    goesBy key entry = decide (nameOf entry = toAsciiLowercase key) := rfl

/-- The map indexes the list. -/
def Agree (h : PyHeaders) : Prop := Indexes nameOf Prod.snd h.lookup h.list

theorem agree_new (headers : Option (List (Str × Str))) : (new headers).Agree :=
  indexes_foldl (headers.getD [])

/-- What the two comparisons keep is the same. -/
theorem filter_goesBy (key : Str) (list : List (Str × Str)) :
    list.filter (fun entry => !eqIgnoreAsciiCase entry.1 key) =
      list.filter fun entry => nameOf entry ≠ toAsciiLowercase key := by
  apply List.filter_congr
  intro entry _
  show (!goesBy key entry) = _
  rw [goesBy_eq, decide_not]

variable {h : PyHeaders}

theorem Agree.setitem (agree : h.Agree) (key value : Str) : (h.setitem key value).Agree := by
  have set := Indexes.set agree (key, value)
  rw [Agree, PyHeaders.setitem, filter_goesBy]
  exact set

theorem delitem_present {key : Str} (there : h.contains key = true) :
    h.delitem key =
      ({ list := h.list.filter fun entry => !eqIgnoreAsciiCase entry.1 key
         lookup := h.lookup.erase (toAsciiLowercase key) }, .ok ()) := by
  obtain ⟨value, found⟩ := Finmap.mem_iff.mp (of_decide_eq_true there)
  simp [delitem, Finmap.extract_eq_lookup_erase, found]

theorem erase_of_notMem {map : Finmap fun _ : Str => Str} {name : Str} (missing : name ∉ map) :
    map.erase name = map := by
  apply Finmap.ext_lookup
  intro other
  by_cases here : other = name
  · subst here
    rw [Finmap.lookup_erase, Finmap.lookup_eq_none.mpr missing]
  · exact Finmap.lookup_erase_ne here

theorem delitem_missing {key : Str} (missing : h.contains key = false) :
    h.delitem key = (h, .error ⟨key⟩) := by
  have absent : toAsciiLowercase key ∉ h.lookup := of_decide_eq_false missing
  simp [delitem, Finmap.extract_eq_lookup_erase, Finmap.lookup_eq_none.mpr absent,
    erase_of_notMem absent]

theorem Agree.delitem (agree : h.Agree) (key : Str) : (h.delitem key).1.Agree := by
  cases there : h.contains key with
  | true =>
      rw [delitem_present there, Agree, filter_goesBy]
      exact agree.erase (toAsciiLowercase key)
  | false =>
      rw [delitem_missing there]
      exact agree

theorem Agree.edit (agree : h.Agree) (change : Edit) : (h.edit change).Agree := by
  cases change with
  | set key value => exact agree.setitem key value
  | delete key => exact agree.delitem key

theorem Agree.edits (agree : h.Agree) (list : List Edit) : (h.edits list).Agree := by
  induction list generalizing h with
  | nil => exact agree
  | cons change list ih => exact ih (agree.edit change)

/-! ## What is asked -/

theorem Agree.lookup (agree : h.Agree) (key : Str) :
    h.lookup.lookup (toAsciiLowercase key) = lastValue key h.items :=
  agree _

theorem Agree.contains_iff (agree : h.Agree) (key : Str) :
    h.contains key = true ↔ ∃ entry ∈ h.items, goesBy key entry = true := by
  rw [contains, decide_eq_true_eq, agree.mem_iff, List.mem_map]
  simp only [goesBy_eq, decide_eq_true_eq]
  rfl

/-- The names in a list of headers, each once. -/
def names (items : List (Str × Str)) : Finset Str := (items.map nameOf).toFinset

theorem Agree.keys (agree : h.Agree) : h.keys = (names h.items).val :=
  congrArg Finset.val (Indexes.keys agree)

/-- Everything the object shows is what its list implies. -/
structure Consistent (h : PyHeaders) : Prop where
  lookup : h.lookup = (fromList h.items).lookup
  last : ∀ name, h.lookup.lookup name = last nameOf Prod.snd name h.items
  getitem : ∀ key, h.getitem key = (lastValue key h.items).elim (.error ⟨key⟩) .ok
  get : ∀ {Object : Type} (key : Str) (default : Option Object),
    h.get key default = (lastValue key h.items).elim (default.map .inr) (some ∘ .inl)
  contains : ∀ key, h.contains key = true ↔ ∃ entry ∈ h.items, goesBy key entry = true
  len : h.len = (names h.items).card
  keys : h.keys = (names h.items).val
  values : h.values.map some = h.keys.map fun name => Lib.LastValue.last nameOf Prod.snd name h.items
  /-- A set leaves one entry of the name and the others as they were. -/
  set : ∀ key value,
    (h.setitem key value).items.filter (goesBy key) = [(key, value)] ∧
      (h.setitem key value).items.filter (fun entry => !goesBy key entry) =
        h.items.filter fun entry => !goesBy key entry
  /-- A delete leaves none. -/
  deleted : ∀ key, h.contains key = true →
    (h.delitem key).2 = .ok () ∧ (h.delitem key).1.items.filter (goesBy key) = [] ∧
      (h.delitem key).1.items.filter (fun entry => !goesBy key entry) =
        h.items.filter fun entry => !goesBy key entry
  /-- Without such an entry nothing changes. -/
  failed : ∀ key, h.contains key = false → h.delitem key = (h, .error ⟨key⟩)

theorem Agree.consistent (agree : h.Agree) : h.Consistent where
  lookup := Indexes.unique agree (indexes_foldl h.items)
  last := agree
  getitem := by
    intro key
    rw [PyHeaders.getitem, agree.lookup]
    cases lastValue key h.items <;> rfl
  get := by
    intro Object key default
    rw [PyHeaders.get, agree.lookup]
    cases lastValue key h.items <;> rfl
  contains := agree.contains_iff
  len := by
    have shown := congrArg Multiset.card agree.keys
    rw [PyHeaders.keys, Multiset.card_map] at shown
    exact shown
  keys := agree.keys
  values := by
    rw [PyHeaders.values, Multiset.map_map]
    exact Indexes.values agree
  set := by
    intro key value
    have own : eqIgnoreAsciiCase key key = true := decide_eq_true rfl
    constructor
    · simp [PyHeaders.setitem, items, List.filter_append, List.filter_filter, own, goesBy]
    · simp [PyHeaders.setitem, items, List.filter_append, List.filter_filter, own, goesBy]
  deleted := by
    intro key there
    rw [delitem_present there]
    refine ⟨rfl, ?_, ?_⟩
    · simp [items, List.filter_filter, goesBy]
    · simp [items, List.filter_filter, goesBy]
  failed := fun key missing => delitem_missing missing

/-- **The two halves agree.**  After any edits of any headers, the map is the index of the
list and every question is answered as the list implies; a set leaves one entry of its
name, a delete none, and a delete that raises changes nothing. -/
theorem headers_consistent (headers : Option (List (Str × Str))) (list : List Edit) :
    ((new headers).edits list).Consistent :=
  ((agree_new headers).edits list).consistent

example :
    ((new (some [("Set-Cookie".toList, "a=1".toList), ("set-cookie".toList, "b=2".toList)])).edits
      [.delete "Server".toList, .set "X".toList "1".toList]).getitem "SET-COOKIE".toList =
      .ok "b=2".toList := by decide

end PyHeaders

end Blasthttp
