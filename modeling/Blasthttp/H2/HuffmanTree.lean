/-
# Blasthttp.H2.HuffmanTree -- the node vector is the code trie

`huffman_tree()` grows a vector of nodes one codeword at a time.  `Layout` says
what such a vector is: an enumeration `paths` of the existing tree paths, each
node being a function of its own path (its children are the positions of the two
longer paths, its depth of trailing ones and its EOS flag are read off the path).
`insertSymbol_layout` keeps that form through one insertion, so the finished
vector stores exactly the trie of the code table (`huffmanTree_stores`), on which
the table is checked once (`codeTrie_checked`).
-/
import Blasthttp.Lib.CodeTrie
import Blasthttp.H2.Huffman
import Mathlib.Data.List.Nodup

namespace Blasthttp.H2.Huffman

open Blasthttp.Lib.Bits Blasthttp.Lib.CodeTrie

set_option autoImplicit false

/-! ## The layout of a node vector -/

/-- The index of a path's node, 0 when it has none. -/
def slot (paths : List (List Bool)) (path : List Bool) : Nat :=
  if path ∈ paths then paths.idxOf path else 0

/-- The number of one-bits at the end of a path. -/
def onesDepth (path : List Bool) : Nat := (path.reverse.takeWhile id).length

/-- The node of a path in a vector enumerating `paths`. -/
def nodeOf (paths : List (List Bool)) (sym : List Bool → Option Nat) (path : List Bool) :
    HuffNode where
  left := slot paths (path ++ [false])
  right := slot paths (path ++ [true])
  symbol := sym path
  allOnesDepth := onesDepth path
  prefixOfEos := path.all id

/-- A new node at the end of a path. -/
def bareNode (path : List Bool) : HuffNode where
  left := 0
  right := 0
  symbol := none
  allOnesDepth := onesDepth path
  prefixOfEos := path.all id

structure Layout (tree : List HuffNode) (paths : List (List Bool))
    (sym : List Bool → Option Nat) : Prop where
  nodup : paths.Nodup
  root : ∃ rest, paths = [] :: rest
  closed : ∀ p b, p ++ [b] ∈ paths → p ∈ paths
  labelled : ∀ p, p ∉ paths → sym p = none
  nodes : tree = paths.map (nodeOf paths sym)

theorem onesDepth_concat (p : List Bool) (b : Bool) :
    onesDepth (p ++ [b]) = if b then onesDepth p + 1 else 0 := by
  cases b <;> simp [onesDepth]

theorem all_concat (p : List Bool) (b : Bool) : (p ++ [b]).all id = (p.all id && b) := by
  simp

namespace Layout

variable {tree : List HuffNode} {paths : List (List Bool)} {sym : List Bool → Option Nat}

theorem length (layout : Layout tree paths sym) : tree.length = paths.length := by
  rw [layout.nodes, List.length_map]

theorem nil_mem (layout : Layout tree paths sym) : [] ∈ paths := by
  obtain ⟨rest, rfl⟩ := layout.root
  exact List.mem_cons_self

theorem idxOf_nil (layout : Layout tree paths sym) : paths.idxOf [] = 0 := by
  obtain ⟨rest, rfl⟩ := layout.root
  simp

theorem nodeAt_idxOf (layout : Layout tree paths sym) {p : List Bool} (there : p ∈ paths) :
    nodeAt tree (paths.idxOf p) = nodeOf paths sym p := by
  have bound : paths.idxOf p < paths.length := List.idxOf_lt_length_of_mem there
  rw [nodeAt, layout.nodes, List.getD_eq_getElem _ _ (by simpa using bound), List.getElem_map,
    List.getElem_idxOf bound]

/-- A nonempty path's node is never node 0. -/
theorem slot_concat_ne_zero (layout : Layout tree paths sym) {p : List Bool} {b : Bool} :
    slot paths (p ++ [b]) ≠ 0 ↔ p ++ [b] ∈ paths := by
  obtain ⟨rest, rfl⟩ := layout.root
  by_cases there : p ++ [b] ∈ [] :: rest
  · simp [slot, there]
  · simp [slot, there]

end Layout

/-- The slots of a longer enumeration: only the new path's changes. -/
theorem slot_append {paths : List (List Bool)} {x : List Bool} (fresh : x ∉ paths)
    (q : List Bool) :
    slot (paths ++ [x]) q = if q = x then paths.length else slot paths q := by
  by_cases same : q = x
  · subst same
    simp [slot, List.idxOf_append, fresh]
  · by_cases there : q ∈ paths
    · simp [slot, there, same, List.idxOf_append]
    · simp [slot, there, same]

/-- Adding a missing child: every node keeps its path's reading, the parent's
child pointer moves to the new node, and the new node is childless. -/
theorem nodeOf_append {paths : List (List Bool)} {sym : List Bool → Option Nat} {p : List Bool}
    {b : Bool} (fresh : p ++ [b] ∉ paths) (q : List Bool) :
    nodeOf (paths ++ [p ++ [b]]) sym q =
      if q = p then
        if b then { nodeOf paths sym q with right := paths.length }
        else { nodeOf paths sym q with left := paths.length }
      else nodeOf paths sym q := by
  have same : ∀ c, (q ++ [c] = p ++ [b]) = (q = p ∧ c = b) := by
    intro c
    rw [eq_iff_iff, List.append_singleton_inj]
  unfold nodeOf
  simp only [slot_append fresh, same]
  by_cases hq : q = p <;> cases b <;> simp [hq]

theorem layout_root : Layout [rootNode] [[]] (fun _ => none) where
  nodup := by simp
  root := ⟨[], rfl⟩
  closed := by simp
  labelled := by simp
  nodes := by simp [nodeOf, slot, rootNode, onesDepth]

/-- Extending the enumeration by a fresh child path. -/
theorem Layout.extend {tree : List HuffNode} {paths : List (List Bool)}
    {sym : List Bool → Option Nat} (layout : Layout tree paths sym) {p : List Bool} {b : Bool}
    (there : p ∈ paths) (fresh : p ++ [b] ∉ paths) :
    Layout
      ((tree ++ [bareNode (p ++ [b])]).modify (paths.idxOf p) fun node =>
        if b then { node with right := tree.length } else { node with left := tree.length })
      (paths ++ [p ++ [b]]) sym where
  nodup := by
    rw [List.nodup_append]
    refine ⟨layout.nodup, by simp, ?_⟩
    rintro x hx y hy rfl
    exact fresh (List.mem_singleton.mp hy ▸ hx)
  root := by
    obtain ⟨rest, rfl⟩ := layout.root
    exact ⟨_, rfl⟩
  closed := by
    intro q c hq
    rw [List.mem_append, List.mem_singleton] at hq
    rcases hq with old | new
    · exact List.mem_append_left _ (layout.closed q c old)
    · rw [List.append_singleton_inj] at new
      exact List.mem_append_left _ (new.1 ▸ there)
  labelled := by
    intro q hq
    exact layout.labelled q fun h => hq (List.mem_append_left _ h)
  nodes := by
    have bound : paths.idxOf p < paths.length := List.idxOf_lt_length_of_mem there
    apply List.ext_getElem?
    intro k
    rw [List.getElem?_modify, List.getElem?_map]
    rcases Nat.lt_trichotomy k paths.length with old | last | past
    · -- an old node: only the parent's pointer moves
      rw [List.getElem?_append_left (by rw [layout.length]; exact old),
        List.getElem?_append_left old, layout.nodes, List.getElem?_map,
        List.getElem?_eq_getElem old]
      simp only [Option.map_some, Option.map_eq_map]
      rw [nodeOf_append fresh, List.length_map]
      have here : paths.idxOf p = k ↔ paths[k] = p := by
        constructor
        · rintro rfl; exact List.getElem_idxOf bound
        · intro h; subst h; exact layout.nodup.idxOf_getElem k old
      by_cases hk : paths[k] = p
      · rw [if_pos (here.mpr hk), if_pos hk]
      · rw [if_neg (fun h => hk (here.mp h)), if_neg hk]
    · -- the new node
      have childless : ∀ c, p ++ [b] ++ [c] ∉ paths := fun c h =>
        fresh (layout.closed _ _ h)
      have other : p ++ [b] ≠ p := by simp
      rw [List.getElem?_append_right (by rw [layout.length, last]),
        List.getElem?_append_right (by rw [last]), layout.length, last, Nat.sub_self]
      simp only [List.getElem?_cons_zero, Option.map_some, Option.map_eq_map]
      rw [if_neg (by omega), nodeOf_append fresh, if_neg other]
      simp only [nodeOf, slot, childless, layout.labelled _ fresh, if_false]
      rfl
    · rw [List.getElem?_eq_none (by simp [layout.length]; omega),
        List.getElem?_eq_none (by simp; omega)]
      rfl

/-! ## Insertion -/

theorem insertBit_layout {tree : List HuffNode} {paths : List (List Bool)}
    {sym : List Bool → Option Nat} (layout : Layout tree paths sym) {p : List Bool}
    (there : p ∈ paths) (b : Bool) :
    ∃ paths', Layout (insertBit tree (paths.idxOf p) b).1 paths' sym ∧
      (insertBit tree (paths.idxOf p) b).2 = paths'.idxOf (p ++ [b]) ∧
      ∀ q, q ∈ paths' ↔ q ∈ paths ∨ q = p ++ [b] := by
  have parent := layout.nodeAt_idxOf there
  by_cases old : p ++ [b] ∈ paths
  · -- the child exists: the vector is left alone
    have child : slot paths (p ++ [b]) = paths.idxOf (p ++ [b]) := if_pos old
    have linked := (layout.slot_concat_ne_zero (p := p) (b := b)).mpr old
    have mem : ∀ q, q ∈ paths ↔ q ∈ paths ∨ q = p ++ [b] := by
      intro q
      constructor
      · exact .inl
      · rintro (h | rfl)
        · exact h
        · exact old
    refine ⟨paths, ?_, ?_, mem⟩
    · cases b <;> simp only [insertBit, parent, nodeOf] <;> simpa [linked] using layout
    · cases b <;> simp only [insertBit, parent, nodeOf] <;>
        simp [child, child ▸ linked]
  · have unlinked : slot paths (p ++ [b]) = 0 := if_neg old
    refine ⟨paths ++ [p ++ [b]], ?_, ?_, by simp⟩
    · have extended := layout.extend there old
      cases b <;> simp only [insertBit, parent, nodeOf] <;>
        simpa [unlinked, bareNode, onesDepth_concat, all_concat] using extended
    · cases b <;> simp only [insertBit, parent, nodeOf] <;>
        simp [unlinked, List.idxOf_append, old, layout.length]

theorem insertBits_layout {sym : List Bool → Option Nat} (code : Nat) :
    ∀ (i : Nat) (tree : List HuffNode) (paths : List (List Bool)) (p : List Bool),
      Layout tree paths sym → p ∈ paths →
      ∃ paths', Layout (insertBits code i tree (paths.idxOf p)).1 paths' sym ∧
        (insertBits code i tree (paths.idxOf p)).2 = paths'.idxOf (p ++ msb i code) ∧
        ∀ q, q ∈ paths' ↔ q ∈ paths ∨ ∃ r, r <+: msb i code ∧ q = p ++ r
  | 0, tree, paths, p, layout, there => by
      refine ⟨paths, layout, by simp [insertBits, msb], ?_⟩
      intro q
      simp only [msb, List.prefix_nil]
      constructor
      · exact .inl
      · rintro (h | ⟨r, rfl, rfl⟩)
        · exact h
        · simpa using there
  | i + 1, tree, paths, p, layout, there => by
      obtain ⟨paths₁, layout₁, idx₁, mem₁⟩ := insertBit_layout layout there (code.testBit i)
      obtain ⟨paths₂, layout₂, idx₂, mem₂⟩ := insertBits_layout code i _ paths₁ _ layout₁
        ((mem₁ _).mpr (.inr rfl))
      have step : insertBits code (i + 1) tree (paths.idxOf p) =
          insertBits code i (insertBit tree (paths.idxOf p) (code.testBit i)).1
            (paths₁.idxOf (p ++ [code.testBit i])) := by
        rw [insertBits, ← idx₁]
      refine ⟨paths₂, by rw [step]; exact layout₂, by rw [step, idx₂]; simp [msb], ?_⟩
      intro q
      rw [mem₂, mem₁, msb]
      constructor
      · rintro ((old | rfl) | ⟨r, hr, rfl⟩)
        · exact .inl old
        · exact .inr ⟨[code.testBit i], by simp [List.cons_prefix_cons], rfl⟩
        · exact .inr ⟨code.testBit i :: r, by simpa [List.cons_prefix_cons] using hr, by simp⟩
      · rintro (old | ⟨r, hr, rfl⟩)
        · exact .inl (.inl old)
        · cases r with
          | nil => exact .inl (.inl (by simpa using there))
          | cons c r =>
              obtain ⟨rfl, rest⟩ := List.cons_prefix_cons.mp hr
              exact .inr ⟨r, rest, by simp⟩

theorem insertSymbol_layout {tree : List HuffNode} {paths : List (List Bool)}
    {sym : List Bool → Option Nat} (layout : Layout tree paths sym) (code len s : Nat) :
    ∃ paths', Layout (insertSymbol tree code len s) paths'
        (fun q => if q = msb len code then some s else sym q) ∧
      ∀ q, q ∈ paths' ↔ q ∈ paths ∨ q <+: msb len code := by
  obtain ⟨paths', layout', idx, mem⟩ := insertBits_layout code len tree paths [] layout layout.nil_mem
  rw [layout.idxOf_nil] at layout' idx
  have there : msb len code ∈ paths' := (mem _).mpr (.inr ⟨_, List.prefix_rfl, rfl⟩)
  refine ⟨paths', ⟨layout'.nodup, layout'.root, layout'.closed, ?_, ?_⟩, ?_⟩
  · intro q hq
    have other : q ≠ msb len code := by rintro rfl; exact hq there
    simp only [if_neg other]
    exact layout'.labelled q hq
  · have bound : paths'.idxOf (msb len code) < paths'.length := List.idxOf_lt_length_of_mem there
    simp only [insertSymbol, idx, List.nil_append]
    apply List.ext_getElem?
    intro k
    rw [List.getElem?_modify, List.getElem?_map, layout'.nodes, List.getElem?_map]
    by_cases old : k < paths'.length
    · rw [List.getElem?_eq_getElem old]
      simp only [Option.map_some, Option.map_eq_map]
      have here : paths'.idxOf (msb len code) = k ↔ paths'[k] = msb len code := by
        constructor
        · rintro rfl; exact List.getElem_idxOf bound
        · intro h; rw [← h]; exact layout'.nodup.idxOf_getElem k old
      by_cases hk : paths'[k] = msb len code
      · rw [if_pos (here.mpr hk)]; simp [nodeOf, hk]
      · rw [if_neg (fun h => hk (here.mp h))]; simp [nodeOf, hk]
    · rw [List.getElem?_eq_none (by omega)]; rfl
  · intro q
    rw [mem]
    simp

/-! ## The finished tree -/

/-- `tree` stores `trie`: it enumerates the trie's paths and carries its symbols. -/
def Stores (tree : List HuffNode) (trie : Trie Nat) : Prop :=
  ∃ paths, Layout tree paths (fun p => (trie.sub p).sym) ∧
    ∀ p, p ∈ paths ↔ (trie.sub p).present = true

theorem stores_root : Stores [rootNode] (.node none .nil .nil) := by
  have bare : (fun p => ((Trie.node none .nil .nil : Trie Nat).sub p).sym) = fun _ => none := by
    funext p
    cases p with
    | nil => rfl
    | cons b p => cases b <;> simp [Trie.sub, Trie.child, Trie.sym]
  refine ⟨[[]], by rw [bare]; exact layout_root, ?_⟩
  intro p
  cases p with
  | nil => simp [Trie.sub, Trie.present]
  | cons b p => cases b <;> simp [Trie.sub, Trie.child, Trie.present]

theorem insertSymbol_stores {tree : List HuffNode} {trie : Trie Nat} (stores : Stores tree trie)
    (code len s : Nat) :
    Stores (insertSymbol tree code len s) (trie.insert (msb len code) s) := by
  obtain ⟨paths, layout, mem⟩ := stores
  obtain ⟨paths', layout', mem'⟩ := insertSymbol_layout layout code len s
  refine ⟨paths', ?_, ?_⟩
  · simpa only [Trie.sym_sub_insert] using layout'
  · intro p
    rw [mem', mem, Trie.present_sub_insert, Bool.or_eq_true, List.isPrefixOf_iff_prefix]

/-- The code table as codewords: the 256 byte values and EOS. -/
def codeTable : List (List Bool × Nat) := symbols.map fun e => (msb e.2.1 e.1, e.2.2)

def codeTrie : Trie Nat := .ofTable codeTable

theorem huffmanTree_stores : Stores huffmanTree codeTrie := by
  have loop : ∀ (entries : List (Nat × Nat × Nat)) (tree : List HuffNode) (trie : Trie Nat),
      Stores tree trie →
      Stores (entries.foldl (fun tree e => insertSymbol tree e.1 e.2.1 e.2.2) tree)
        ((entries.map fun e => (msb e.2.1 e.1, e.2.2)).foldl
          (fun t e => t.insert e.1 e.2) trie) := by
    intro entries
    induction entries with
    | nil => intro tree trie h; exact h
    | cons e entries ih => intro tree trie h; exact ih _ _ (insertSymbol_stores h e.1 e.2.1 e.2.2)
  exact loop symbols [rootNode] (.node none .nil .nil) stores_root

/-- The transcribed table, checked once: it is a complete prefix-free code, every
symbol decodes from its own codeword, and EOS is thirty ones. -/
theorem codeTrie_checked :
    (codeTrie.complete && codeTable.all fun e => (codeTrie.sub e.1).sym == some e.2) = true := by
  decide +kernel

theorem codeTrie_complete : codeTrie.complete = true :=
  (Bool.and_eq_true _ _ ▸ codeTrie_checked).1

theorem codeTrie_sym {code : List Bool} {s : Nat} :
    (codeTrie.sub code).sym = some s ↔ (code, s) ∈ codeTable := by
  constructor
  · exact Trie.mem_of_sym_ofTable
  · intro mem
    have all := (Bool.and_eq_true _ _ ▸ codeTrie_checked).2
    exact beq_iff_eq.mp (List.all_eq_true.mp all _ mem)

theorem codeTrie_root : codeTrie.sym = none := by
  cases h : codeTrie.sym with
  | none => rfl
  | some s =>
      have mem := codeTrie_sym.mp (show (codeTrie.sub []).sym = some s from h)
      have wide : ∀ e ∈ codeTable, e.1 ≠ [] := by decide +kernel
      exact absurd rfl (wide _ mem)

end Blasthttp.H2.Huffman
