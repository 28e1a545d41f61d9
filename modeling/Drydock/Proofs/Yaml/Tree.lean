import Drydock.Yaml.Fault
import Mathlib

set_option autoImplicit false
set_option relaxedAutoImplicit false

/-!
The tree of a document: the nodes that its value is made of, and the mappings among them that repeat a
key. Main statement: the parts of a node of the document are nodes of it, so that only as many nodes are
reached as there are.
-/

namespace Drydock.Yaml

mutual

/-- Trees can be compared. -/
def Node.decEq : (m n : Node) → Decidable (m = n)
  | .scalar i s x, .scalar j t y => decidable_of_iff (i = j ∧ s = t ∧ x = y) (by simp)
  | .list i s ms, .list j t ns =>
    match decEqItems ms ns with
    | .isTrue same => decidable_of_iff (i = j ∧ s = t) (by simp [same])
    | .isFalse differ => .isFalse (by simp [differ])
  | .map i s es, .map j t fs =>
    match decEqEntries es fs with
    | .isTrue same => decidable_of_iff (i = j ∧ s = t) (by simp [same])
    | .isFalse differ => .isFalse (by simp [differ])
  | .ref i, .ref j => decidable_of_iff (i = j) (by simp)
  | .scalar .., .list .. | .scalar .., .map .. | .scalar .., .ref _ => .isFalse (by simp)
  | .list .., .scalar .. | .list .., .map .. | .list .., .ref _ => .isFalse (by simp)
  | .map .., .scalar .. | .map .., .list .. | .map .., .ref _ => .isFalse (by simp)
  | .ref _, .scalar .. | .ref _, .list .. | .ref _, .map .. => .isFalse (by simp)
termination_by structural m => m

def decEqItems : (ms ns : List Node) → Decidable (ms = ns)
  | [], [] => .isTrue rfl
  | m :: ms, n :: ns =>
    match m.decEq n, decEqItems ms ns with
    | .isTrue first, .isTrue rest => .isTrue (by rw [first, rest])
    | .isFalse differ, _ | _, .isFalse differ => .isFalse (by simp [differ])
  | [], _ :: _ | _ :: _, [] => .isFalse (by simp)
termination_by structural ms => ms

def decEqEntries : (es fs : List (Node × Node)) → Decidable (es = fs)
  | [], [] => .isTrue rfl
  | (k, v) :: es, (l, w) :: fs =>
    match k.decEq l, v.decEq w, decEqEntries es fs with
    | .isTrue key, .isTrue value, .isTrue rest => .isTrue (by rw [key, value, rest])
    | .isFalse differ, _, _ | _, .isFalse differ, _ | _, _, .isFalse differ => .isFalse (by simp [differ])
  | [], _ :: _ | _ :: _, [] => .isFalse (by simp)
termination_by structural es => es

end

instance : DecidableEq Node := Node.decEq

instance : DecidableEq Document
  | ⟨r, as, ls, m, _⟩, ⟨r', as', ls', n, _⟩ =>
    decidable_of_iff (r = r' ∧ as = as' ∧ ls = ls' ∧ m = n) (by simp)

namespace Node

theorem mem_all_self (n : Node) : n ∈ n.all := by
  cases n <;> simp [all]

theorem mem_allItems {n m : Node} {items : List Node} (member : n ∈ items) (inside : m ∈ n.all) :
    m ∈ allItems items := by
  induction items with
  | nil => cases member
  | cons first rest ih =>
    rw [allItems, List.mem_append]
    rcases List.mem_cons.mp member with rfl | later
    · exact .inl inside
    · exact .inr (ih later)

theorem mem_allEntries {e : Node × Node} {m : Node} {entries : List (Node × Node)} (member : e ∈ entries)
    (inside : m ∈ e.1.all ∨ m ∈ e.2.all) : m ∈ allEntries entries := by
  induction entries with
  | nil => cases member
  | cons first rest ih =>
    rw [allEntries, List.mem_append, List.mem_append]
    rcases List.mem_cons.mp member with rfl | later
    · exact .inl inside
    · exact .inr (ih later)

mutual

theorem all_subset {n m : Node} (inside : m ∈ n.all) : m.all ⊆ n.all := by
  cases n with
  | scalar id tag text =>
    obtain rfl := List.mem_singleton.mp inside
    exact List.Subset.refl _
  | ref id =>
    obtain rfl := List.mem_singleton.mp inside
    exact List.Subset.refl _
  | list id tag items =>
    rcases List.mem_cons.mp inside with rfl | deeper
    · exact List.Subset.refl _
    · exact List.Subset.trans (allItems_subset deeper) (List.subset_cons_self _ _)
  | map id tag entries =>
    rcases List.mem_cons.mp inside with rfl | deeper
    · exact List.Subset.refl _
    · exact List.Subset.trans (allEntries_subset deeper) (List.subset_cons_self _ _)
termination_by structural n

theorem allItems_subset {items : List Node} {m : Node} (inside : m ∈ allItems items) :
    m.all ⊆ allItems items := by
  cases items with
  | nil => cases inside
  | cons n rest =>
    rcases List.mem_append.mp inside with here | later
    · exact List.Subset.trans (all_subset here) (List.subset_append_left _ _)
    · exact List.Subset.trans (allItems_subset later) (List.subset_append_right _ _)
termination_by structural items

theorem allEntries_subset {entries : List (Node × Node)} {m : Node} (inside : m ∈ allEntries entries) :
    m.all ⊆ allEntries entries := by
  cases entries with
  | nil => cases inside
  | cons e rest =>
    obtain ⟨k, v⟩ := e
    rw [allEntries] at inside ⊢
    rcases List.mem_append.mp inside with here | later
    · refine List.Subset.trans ?_ (List.subset_append_left _ _)
      rcases List.mem_append.mp here with key | value
      · exact List.Subset.trans (all_subset key) (List.subset_append_left _ _)
      · exact List.Subset.trans (all_subset value) (List.subset_append_right _ _)
    · exact List.Subset.trans (allEntries_subset later) (List.subset_append_right _ _)
termination_by structural entries

end

end Node

/-- Collections with anchors, the last one first: each has a number of its own, and uses those that came
before it or that are used inside themselves. -/
inductive Stacked (loops : List Nat) : List (Nat × Node) → Prop
  | nil : Stacked loops []
  | cons {id : Nat} {n : Node} {rest : List (Nat × Node)} (new : id ∉ rest.map Prod.fst)
      (own : ∀ other, n ≠ .ref other)
      (uses : ∀ other, .ref other ∈ n.all → other ∈ rest.map Prod.fst ∨ other ∈ loops)
      (stacked : Stacked loops rest) : Stacked loops ((id, n) :: rest)

theorem Stacked.mono {loops loops' : List Nat} (more : loops ⊆ loops') {stack : List (Nat × Node)}
    (stacked : Stacked loops stack) : Stacked loops' stack := by
  induction stacked with
  | nil => exact .nil
  | cons new own uses _ ih =>
    exact .cons new own (fun other member => (uses other member).imp_right fun loop => more loop) ih

theorem Stacked.nodup {loops : List Nat} {stack : List (Nat × Node)} (stacked : Stacked loops stack) :
    (stack.map Prod.fst).Nodup := by
  induction stacked with
  | nil => exact .nil
  | cons new _ _ _ ih => exact List.nodup_cons.mpr ⟨new, ih⟩

namespace Document

variable {d : Document} {n p : Node}

/-- The key and the value of a mapping with one entry. -/
def pairParts (d : Document) (item : Node) : List Node :=
  match d.resolve item with
  | .map _ _ [(k, v)] => [k, v]
  | _ => []

/-- The nodes that the value of a collection is made of. -/
def parts (d : Document) (n : Node) : List Node :=
  match d.resolve n with
  | .list _ .list items => items
  | .list _ .pairs items => items.flatMap d.pairParts
  | .map _ .map entries => entries.map Prod.snd
  | .map _ .set entries => entries.map Prod.snd
  | _ => []

/-- The nodes that the value of the document is made of. -/
inductive Holds (d : Document) : Node → Prop
  | root : Holds d d.root
  | part {n p : Node} (around : Holds d n) (part : p ∈ d.parts n) : Holds d p

/-- The keys of a mapping, each with its scalar. -/
inductive Keys (d : Document) (n : Node) (keys : List (Node × Scalar)) : Prop
  | map {id : Nat} {tag : Tag} {entries : List (Node × Node)} (map : d.resolve n = .map id tag entries)
      (kind : tag = .map ∨ tag = .set) (nodes : entries.map Prod.fst = keys.map Prod.fst)
      (scalars : ∀ e ∈ keys, d.keyScalar e.1 = .ok e.2)

/-- A node is what its tag says, apart from what is inside its parts, and its keys are scalars. -/
inductive Fits (d : Document) (n : Node) : Prop
  | scalar {s : Scalar} (kind : (d.tag n).isCollection = false) (value : d.scalar n = .ok s)
  | list {id : Nat} {items : List Node} (list : d.resolve n = .list id .list items)
  | pairs {id : Nat} {items : List Node} (list : d.resolve n = .list id .pairs items)
      (single : ∀ item ∈ items, ∃ id tag k v, d.resolve item = .map id tag [(k, v)])
  | map {keys : List (Node × Scalar)} (keys : d.Keys n keys)

/-- A mapping has a key with a scalar that is an earlier key of the mapping as well. -/
inductive Repeats (d : Document) (n : Node) (s : Scalar) : Prop
  | keys {front back : List (Node × Scalar)} {first again : Node × Scalar}
      (keys : d.Keys n (front ++ again :: back)) (earlier : first ∈ front)
      (same : d.isSameKey first again = true) (scalar : again.2 = s)

/-- What a document uses comes before its use or is used inside itself. -/
structure IsLayered (d : Document) : Prop where
  stacked : Stacked d.loops d.anchored.reverse
  root : ∀ id, .ref id ∈ d.root.all → id ∈ d.anchored.map Prod.fst ∨ id ∈ d.loops

/-- All nodes of a document. -/
def nodes (d : Document) : List Node :=
  d.root.all ++ d.anchored.flatMap fun e => e.2.all

theorem length_nodes : d.nodes.length = d.size :=
  d.size_eq.symm

theorem all_subset_nodes (member : n ∈ d.nodes) : n.all ⊆ d.nodes := by
  rcases List.mem_append.mp member with inRoot | inAnchored
  · exact List.Subset.trans (Node.all_subset inRoot) (List.subset_append_left _ _)
  · obtain ⟨e, anchored, inside⟩ := List.mem_flatMap.mp inAnchored
    intro m deeper
    exact List.mem_append_right _ (List.mem_flatMap.mpr ⟨e, anchored, Node.all_subset inside deeper⟩)

/-- What a node stands for is a node of the document, or nothing. -/
theorem resolve_mem_nodes (member : n ∈ d.nodes) : d.resolve n ∈ d.nodes ∨ d.resolve n = .absent := by
  cases n with
  | ref id =>
    cases found : d.anchored.lookup id with
    | none => exact .inr (by simp [resolve, found])
    | some m =>
      refine .inl (List.mem_append_right _ (List.mem_flatMap.mpr ⟨(id, m), ?_, ?_⟩))
      · obtain ⟨before, after, split, -⟩ := List.lookup_eq_some_iff.mp found
        exact split ▸ List.mem_append_right before List.mem_cons_self
      · simp [resolve, found, Node.mem_all_self]
  | scalar id tag text => exact .inl member
  | list id tag items => exact .inl member
  | map id tag entries => exact .inl member

theorem mem_nodes_of_mem_entries {id : Nat} {tag : Tag} {entries : List (Node × Node)} {e : Node × Node}
    (map : d.resolve n = .map id tag entries) (member : n ∈ d.nodes) (entry : e ∈ entries) :
    e.1 ∈ d.nodes ∧ e.2 ∈ d.nodes := by
  rcases resolve_mem_nodes member with found | absent
  · have inside : Node.allEntries entries ⊆ d.nodes := by
      rw [map] at found
      exact List.Subset.trans (List.subset_cons_self _ _) (all_subset_nodes found)
    exact ⟨inside (Node.mem_allEntries entry (.inl (Node.mem_all_self _))),
      inside (Node.mem_allEntries entry (.inr (Node.mem_all_self _)))⟩
  · cases map.symm.trans absent

theorem mem_nodes_of_mem_items {id : Nat} {tag : Tag} {items : List Node}
    (list : d.resolve n = .list id tag items) (member : n ∈ d.nodes) (item : p ∈ items) : p ∈ d.nodes := by
  rcases resolve_mem_nodes member with found | absent
  · rw [list] at found
    exact all_subset_nodes found (List.mem_cons_of_mem _ (Node.mem_allItems item (Node.mem_all_self _)))
  · cases list.symm.trans absent

theorem mem_nodes_of_mem_pairParts (member : n ∈ d.nodes) (part : p ∈ d.pairParts n) : p ∈ d.nodes := by
  unfold pairParts at part
  split at part
  · rename_i k v map
    obtain ⟨key, value⟩ := mem_nodes_of_mem_entries map member List.mem_cons_self
    simp only [List.mem_cons, List.not_mem_nil, or_false] at part
    rcases part with rfl | rfl
    · exact key
    · exact value
  · cases part

theorem mem_nodes_of_mem_parts (member : n ∈ d.nodes) (part : p ∈ d.parts n) : p ∈ d.nodes := by
  unfold parts at part
  split at part
  · rename_i list
    exact mem_nodes_of_mem_items list member part
  · rename_i list
    obtain ⟨item, inItems, part⟩ := List.mem_flatMap.mp part
    exact mem_nodes_of_mem_pairParts (mem_nodes_of_mem_items list member inItems) part
  · rename_i map
    obtain ⟨e, entry, rfl⟩ := List.mem_map.mp part
    exact (mem_nodes_of_mem_entries map member entry).2
  · rename_i map
    obtain ⟨e, entry, rfl⟩ := List.mem_map.mp part
    exact (mem_nodes_of_mem_entries map member entry).2
  · cases part

/-- Only nodes of the document are reached from its root. -/
theorem Holds.mem_nodes (holds : d.Holds n) : n ∈ d.nodes := by
  induction holds with
  | root => exact List.mem_append_left _ (Node.mem_all_self _)
  | part _ part ih => exact mem_nodes_of_mem_parts ih part

end Document

end Drydock.Yaml
