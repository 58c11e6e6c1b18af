/-
# Blasthttp.Lib.CodeTrie -- binary code tries and the walk that decodes them

A code table is a list of codewords with their symbols.  `Trie.insert` adds one
codeword; `sym_sub_insert` and `present_sub_insert` say exactly which paths
exist afterwards and which symbol each carries, with no assumption on the table.
The table enters only through `complete`, a computable check of the finished
trie: every node is either a bare leaf or an inner node with both children.  A
complete trie is a prefix-free code that fills the code space, and `walk`, which
follows one child per bit and restarts at every symbol, is then the inverse of
concatenating codewords (`walk_code`, `walk_sound`).
-/
import Mathlib.Data.List.Infix
import Mathlib.Tactic.Common

namespace Blasthttp.Lib.CodeTrie

set_option autoImplicit false

/-- A binary trie; a present node may carry a symbol. -/
inductive Trie (σ : Type) where
  | nil
  | node (sym : Option σ) (zero one : Trie σ)

namespace Trie

variable {σ : Type}

def sym : Trie σ → Option σ
  | nil => none
  | node s _ _ => s

def present : Trie σ → Bool
  | nil => false
  | node _ _ _ => true

def child : Trie σ → Bool → Trie σ
  | nil, _ => nil
  | node _ zero _, false => zero
  | node _ _ one, true => one

/-- The subtrie at the end of a path. -/
def sub : Trie σ → List Bool → Trie σ
  | t, [] => t
  | t, b :: path => (t.child b).sub path

/-- Add a codeword, creating the nodes of its path that do not exist yet. -/
def insert : Trie σ → List Bool → σ → Trie σ
  | t, [], s => node (some s) (t.child false) (t.child true)
  | t, false :: path, s => node t.sym ((t.child false).insert path s) (t.child true)
  | t, true :: path, s => node t.sym (t.child false) ((t.child true).insert path s)

/-- Every node is a bare leaf or an inner node with two children. -/
def complete : Trie σ → Bool
  | nil => false
  | node none zero one => zero.complete && one.complete
  | node (some _) zero one => !zero.present && !one.present

@[simp] theorem sub_nil_trie (path : List Bool) : (nil : Trie σ).sub path = nil := by
  induction path with
  | nil => rfl
  | cons b path ih => simpa [sub, child] using ih

theorem sub_append (t : Trie σ) (p q : List Bool) : t.sub (p ++ q) = (t.sub p).sub q := by
  induction p generalizing t with
  | nil => rfl
  | cons b p ih => exact ih (t.child b)

theorem sub_concat (t : Trie σ) (p : List Bool) (b : Bool) : t.sub (p ++ [b]) = (t.sub p).child b :=
  sub_append t p [b]

theorem present_of_sym {t : Trie σ} {s : σ} (h : t.sym = some s) : t.present = true := by
  cases t with
  | nil => simp [sym] at h
  | node s zero one => rfl

/-- Exactly one path's symbol changes. -/
theorem sym_sub_insert (t : Trie σ) (code : List Bool) (s : σ) (p : List Bool) :
    ((t.insert code s).sub p).sym = if p = code then some s else (t.sub p).sym := by
  induction code generalizing t p with
  | nil =>
      cases p with
      | nil => rfl
      | cons b p => cases b <;> simp [insert, sub, child]
  | cons c code ih =>
      cases p with
      | nil => cases c <;> simp [insert, sub, sym]
      | cons b p => cases c <;> cases b <;> simp [insert, sub, child, ih]

/-- Exactly the paths leading to the codeword come into existence. -/
theorem present_sub_insert (t : Trie σ) (code : List Bool) (s : σ) (p : List Bool) :
    ((t.insert code s).sub p).present = ((t.sub p).present || p.isPrefixOf code) := by
  induction code generalizing t p with
  | nil =>
      cases p with
      | nil => simp [insert, sub, present]
      | cons b p => cases b <;> simp [insert, sub, child]
  | cons c code ih =>
      cases p with
      | nil => cases c <;> simp [insert, sub, present]
      | cons b p => cases c <;> cases b <;> simp [insert, sub, child, ih]

/-! ## Code tables -/

/-- The trie of a table: the bare root with every codeword inserted in turn. -/
def ofTable (table : List (List Bool × σ)) : Trie σ :=
  table.foldl (fun t entry => t.insert entry.1 entry.2) (node none nil nil)

/-- Every symbol found in the trie of a table is one of its codewords. -/
theorem mem_of_sym_ofTable {table : List (List Bool × σ)} {p : List Bool} {s : σ}
    (found : ((ofTable table).sub p).sym = some s) : (p, s) ∈ table := by
  have loop : ∀ (entries : List (List Bool × σ)) (t : Trie σ),
      ((entries.foldl (fun t entry => t.insert entry.1 entry.2) t).sub p).sym = some s →
      (t.sub p).sym = some s ∨ (p, s) ∈ entries := by
    intro entries
    induction entries with
    | nil => intro t h; exact .inl h
    | cons entry entries ih =>
        intro t h
        rcases ih (t.insert entry.1 entry.2) h with found | found
        · rw [sym_sub_insert] at found
          split at found
          · rename_i here
            exact .inr (by simp [here, ← Option.some.inj found])
          · exact .inl found
        · exact .inr (List.mem_cons_of_mem _ found)
  rcases loop table _ found with root | found
  · cases p with
    | nil => simp [sub, sym] at root
    | cons b p => cases b <;> simp [sub, child, sym] at root
  · exact found

/-! ## The walk -/

/-- A complete node with a symbol has nothing below it. -/
theorem child_of_complete_sym {t : Trie σ} {s : σ} (full : t.complete = true) (h : t.sym = some s)
    (b : Bool) : t.child b = nil := by
  cases t with
  | nil => simp [sym] at h
  | node label zero one =>
      simp only [sym] at h
      subst h
      simp only [complete, Bool.and_eq_true, Bool.not_eq_true'] at full
      cases zero <;> cases one <;> cases b <;> simp_all [present, child]

/-- A complete node without a symbol has two complete children. -/
theorem child_complete {t : Trie σ} (full : t.complete = true) (h : t.sym = none) (b : Bool) :
    (t.child b).complete = true := by
  cases t with
  | nil => simp [complete] at full
  | node label zero one =>
      simp only [sym] at h
      subst h
      simp only [complete, Bool.and_eq_true] at full
      cases b
      · exact full.1
      · exact full.2

theorem complete_present {t : Trie σ} (full : t.complete = true) : t.present = true := by
  cases t with
  | nil => simp [complete] at full
  | node => rfl

/-- Follow one bit at a time from `path`, emitting a symbol and restarting at the
root at every node that carries one.  Returns the symbols and the path of the
node the walk stopped at. -/
def walk (root : Trie σ) : List Bool → List Bool → List σ × List Bool
  | [], path => ([], path)
  | b :: rest, path =>
      match (root.sub (path ++ [b])).sym with
      | some s => (s :: (walk root rest []).1, (walk root rest []).2)
      | none => walk root rest (path ++ [b])

/-- Every present node of a complete trie is complete. -/
theorem sub_complete {t : Trie σ} (full : t.complete = true) :
    ∀ {path : List Bool}, (t.sub path).present = true → (t.sub path).complete = true
  | [], _ => full
  | b :: path, there => by
      cases inner : t.sym with
      | none => exact sub_complete (child_complete full inner b) there
      | some s =>
          rw [sub, child_of_complete_sym full inner b, sub_nil_trie] at there
          cases there

/-- In a complete trie no symbol stands strictly above another node. -/
theorem sym_above {root : Trie σ} (full : root.complete = true) {path : List Bool} {b : Bool}
    {rest : List Bool} (below : (root.sub (path ++ b :: rest)).present = true) :
    (root.sub path).sym = none := by
  by_contra h
  obtain ⟨s, hs⟩ := Option.ne_none_iff_exists'.mp h
  have here := sub_complete full (present_of_sym hs)
  rw [sub_append, sub, child_of_complete_sym here hs b, sub_nil_trie] at below
  cases below

theorem complete_concat {root : Trie σ} {path : List Bool}
    (full : (root.sub path).complete = true) (inner : (root.sub path).sym = none) (b : Bool) :
    (root.sub (path ++ [b])).complete = true := by
  rw [sub_concat]
  exact child_complete full inner b

/-- Walking a codeword emits its symbol and restarts. -/
theorem walk_code {root : Trie σ} (full : root.complete = true) (rest : List Bool) {s : σ} :
    ∀ (code path : List Bool), code ≠ [] → (root.sub (path ++ code)).sym = some s →
      walk root (code ++ rest) path = (s :: (walk root rest []).1, (walk root rest []).2)
  | [], _, ne, _ => absurd rfl ne
  | [b], path, _, found => by simp only [List.singleton_append, walk, found]
  | b :: c :: code, path, _, found => by
      have split : path ++ b :: c :: code = path ++ [b] ++ c :: code := by simp
      rw [split] at found
      have inner := sym_above full (present_of_sym found)
      rw [List.cons_append, walk, inner]
      exact walk_code full rest (c :: code) (path ++ [b]) (List.cons_ne_nil _ _) found

/-- What a walk consumed: the codewords of the symbols it emitted, then the path
to the node it stopped at. -/
theorem walk_sound {root : Trie σ} (full : root.complete = true) (inner : root.sym = none) :
    ∀ (bits path : List Bool), (root.sub path).complete = true → (root.sub path).sym = none →
      ∃ codes : List (List Bool),
        path ++ bits = codes.flatten ++ (walk root bits path).2 ∧
        codes.map (fun c => (root.sub c).sym) = (walk root bits path).1.map some ∧
        (root.sub (walk root bits path).2).complete = true ∧
        (root.sub (walk root bits path).2).sym = none
  | [], path, cfull, cinner => ⟨[], by simp [walk], rfl, cfull, cinner⟩
  | b :: rest, path, cfull, cinner => by
      cases hsym : (root.sub (path ++ [b])).sym with
      | some s =>
          obtain ⟨codes, consumed, emitted, stop⟩ := walk_sound full inner rest [] full inner
          refine ⟨(path ++ [b]) :: codes, ?_, ?_, ?_⟩
          · simp only [walk, hsym, List.flatten_cons, List.append_assoc]
            rw [← consumed]
            simp
          · simp only [walk, hsym, List.map_cons, emitted]
          · simp only [walk, hsym]; exact stop
      | none =>
          obtain ⟨codes, consumed, emitted, stop⟩ :=
            walk_sound full inner rest (path ++ [b]) (complete_concat cfull cinner b) hsym
          simp only [walk, hsym]
          exact ⟨codes, by rw [← consumed]; simp, emitted, stop⟩

end Trie

end Blasthttp.Lib.CodeTrie
