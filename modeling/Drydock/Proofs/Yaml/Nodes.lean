import Drydock.Proofs.Yaml.Tree
import Mathlib

set_option autoImplicit false
set_option relaxedAutoImplicit false

/-!
What is kept while a tree is read. Main statement: the documents that are read from tokens are layered: each
collection with an anchor comes after those that it uses, except for uses inside the collection used.
-/

namespace Drydock.Yaml

namespace Reading

/-- The collections that are used in some nodes have ended or are used inside themselves. -/
def Accounts (r : Reading) (ns : List Node) : Prop :=
  ∀ id, .ref id ∈ ns → id ∈ r.anchored.map Prod.fst ∨ id ∈ r.loops

/-- The collections with anchors that have ended are stacked, and anchors name scalars and collections. -/
structure IsLayered (r : Reading) : Prop where
  stacked : Stacked r.loops r.anchored
  below : ∀ e ∈ r.anchored, e.1 < r.count
  named : ∀ e ∈ r.anchors, (∃ id tag text, e.2 = .scalar id tag text) ∨ ∃ id, e.2 = .ref id

/-- A reading goes on, by some nodes. Collections that end on the way have begun on the way. -/
structure Continues (r r' : Reading) (ns : List Node) : Prop where
  count : r.count ≤ r'.count
  loops : r.loops ⊆ r'.loops
  anchored : ∃ new, r'.anchored = new ++ r.anchored ∧ ∀ e ∈ new, r.count ≤ e.1
  layered : r.IsLayered → r'.IsLayered
  accounts : r.IsLayered → r'.Accounts ns

variable {r r' r'' : Reading} {ns ms : List Node}

theorem Accounts.mono (accounts : r.Accounts ns) (more : r.Continues r' ms) : r'.Accounts ns := by
  obtain ⟨new, whole, -⟩ := more.anchored
  intro id member
  rcases accounts id member with ended | loop
  · refine .inl ?_
    rw [whole, List.map_append]
    exact List.mem_append_right _ ended
  · exact .inr (more.loops loop)

namespace Continues

theorem trans (first : r.Continues r' ns) (second : r'.Continues r'' ms) :
    r.Continues r'' (ns ++ ms) := by
  refine ⟨first.count.trans second.count, List.Subset.trans first.loops second.loops, ?_,
    fun layered => second.layered (first.layered layered), fun layered => ?_⟩
  · obtain ⟨new, whole, begun⟩ := first.anchored
    obtain ⟨new', whole', begun'⟩ := second.anchored
    refine ⟨new' ++ new, by rw [whole', whole, List.append_assoc], fun e member => ?_⟩
    rcases List.mem_append.mp member with later | earlier
    · exact first.count.trans (begun' e later)
    · exact begun e earlier
  · have before : r''.Accounts ns := (first.accounts layered).mono second
    have after : r''.Accounts ms := second.accounts (first.layered layered)
    exact fun id member => (List.mem_append.mp member).elim (before id) (after id)

/-- Only uses of collections count. -/
theorem congr (goesOn : r.Continues r' ns) (uses : ∀ id, .ref id ∈ ms → .ref id ∈ ns) :
    r.Continues r' ms :=
  { goesOn with accounts := fun layered id member => goesOn.accounts layered id (uses id member) }

/-- What a reading knows of collections has not changed. -/
theorem of_eq (count : r'.count = r.count) (loops : r'.loops = r.loops)
    (anchored : r'.anchored = r.anchored) (anchors : r'.anchors = r.anchors) : r.Continues r' [] where
  count := count.ge
  loops := loops ▸ List.Subset.refl _
  anchored := ⟨[], anchored, fun e none => by cases none⟩
  layered := fun layered =>
    { stacked := by rw [loops, anchored]; exact layered.stacked
      below := by rw [anchored, count]; exact layered.below
      named := by rw [anchors]; exact layered.named }
  accounts := fun _ id none => by cases none

theorem skip (r : Reading) : r.Continues r.skip [] :=
  of_eq rfl rfl rfl rfl

/-- A comma is passed over in front of all but the first. -/
theorem comma (first : Bool) (r : Reading) : r.Continues (if first then r else r.skip) [] := by
  split
  · exact of_eq rfl rfl rfl rfl
  · exact skip r

theorem number (r : Reading) : r.Continues { r with count := r.count + 1 } [] where
  count := Nat.le_succ _
  loops := List.Subset.refl _
  anchored := ⟨[], rfl, fun e none => by cases none⟩
  layered := fun layered =>
    { layered with below := fun e member => (layered.below e member).trans (Nat.lt_succ_self _) }
  accounts := fun _ id none => by cases none

theorem bind (p : Properties) (r : Reading) {n : Node}
    (named : (∃ id tag text, n = .scalar id tag text) ∨ ∃ id, n = .ref id) :
    r.Continues (p.bind n r) [] := by
  unfold Properties.bind
  split
  · exact of_eq rfl rfl rfl rfl
  · refine { of_eq rfl rfl rfl rfl with layered := fun layered => ?_ }
    exact ⟨layered.stacked, layered.below, List.forall_mem_cons.mpr ⟨named, layered.named⟩⟩

/-- A scalar is read. -/
theorem leaf (p : Properties) (plain : Bool) (text : String) (r : Reading) :
    r.Continues (p.leaf plain text r).2 (p.leaf plain text r).1.all := by
  have made := (number r).trans (bind p { r with count := r.count + 1 }
    (.inl ⟨r.count, p.scalarTag plain text, text, rfl⟩))
  exact made.congr fun id member => by simp [Properties.leaf, Node.all] at member

/-- A collection begins. -/
theorem start (p : Properties) (r : Reading) : r.Continues (p.start r).2 [] :=
  (number r).trans (bind p { r with count := r.count + 1 } (.inr ⟨r.count, rfl⟩))

theorem properties {p : Properties} (read : Yaml.properties r = some (p, r')) : r.Continues r' [] := by
  unfold Yaml.properties at read
  split at read
  · obtain ⟨tag, -, same⟩ := Option.bind_eq_some_iff.mp read
    cases same
    exact of_eq rfl rfl rfl rfl
  · obtain ⟨tag, -, same⟩ := Option.bind_eq_some_iff.mp read
    cases same
    exact of_eq rfl rfl rfl rfl
  · cases read
    exact of_eq rfl rfl rfl rfl
  · cases read
    exact of_eq rfl rfl rfl rfl
  · obtain ⟨tag, -, same⟩ := Option.bind_eq_some_iff.mp read
    cases same
    exact of_eq rfl rfl rfl rfl
  · cases read
    exact of_eq rfl rfl rfl rfl

theorem absent (goesOn : r.Continues r' []) : r.Continues r' Node.absent.all :=
  goesOn.congr fun id member => by simp [Node.absent, Node.all] at member

/-- A node is used. -/
theorem use {n : Node} {a : String} (found : r.anchors.lookup a = some n) : r.Continues (r.use n) n.all := by
  have named (layered : r.IsLayered) :
      (∃ id tag text, n = .scalar id tag text) ∨ ∃ id, n = .ref id := by
    obtain ⟨before, after, split, -⟩ := List.lookup_eq_some_iff.mp found
    exact layered.named (a, n) (split ▸ List.mem_append_right before List.mem_cons_self)
  cases n with
  | ref id =>
    rw [Reading.use]
    split
    · rename_i known
      refine { of_eq rfl rfl rfl rfl with accounts := fun _ other member => ?_ }
      obtain rfl : other = id := by simpa [Node.all] using member
      rcases Bool.or_eq_true_iff.mp known with ended | loop
      · obtain ⟨x, ended⟩ := Option.isSome_iff_exists.mp ended
        obtain ⟨before, after, split, -⟩ := List.lookup_eq_some_iff.mp ended
        exact .inl (by simp [split])
      · exact .inr (by simpa using loop)
    · refine ⟨le_rfl, List.subset_cons_self _ _, ⟨[], rfl, fun e none => by cases none⟩, ?_, ?_⟩
      · exact fun layered => { layered with stacked := layered.stacked.mono (List.subset_cons_self _ _) }
      · intro _ other member
        obtain rfl : other = id := by simpa [Node.all] using member
        exact .inr List.mem_cons_self
  | scalar id tag text =>
    exact (of_eq rfl rfl rfl rfl).congr fun other member => by simp [Node.all] at member
  -- Collections are not named themselves, only by their numbers.
  | list id tag items =>
    refine { of_eq rfl rfl rfl rfl with accounts := fun layered => ?_ }
    rcases named layered with ⟨_, _, _, same⟩ | ⟨_, same⟩ <;> cases same
  | map id tag entries =>
    refine { of_eq rfl rfl rfl rfl with accounts := fun layered => ?_ }
    rcases named layered with ⟨_, _, _, same⟩ | ⟨_, same⟩ <;> cases same

/-- A collection ends. It has begun before all collections that ended inside it, and after all that had
ended before. -/
theorem finish (p : Properties) {made : Node} (inside : (p.start r).2.Continues r' ns)
    (own : ∀ id, made ≠ .ref id) (uses : ∀ id, .ref id ∈ made.all → .ref id ∈ ns) :
    r.Continues (p.finish (p.start r).1 made r').2 (p.finish (p.start r).1 made r').1.all := by
  have whole := (start p r).trans inside
  have begun : (p.start r).2.count = r.count + 1 ∧ (p.start r).2.anchored = r.anchored := by
    unfold Properties.start Properties.bind
    split <;> exact ⟨rfl, rfl⟩
  unfold Properties.finish
  split
  -- With an anchor it is put before all that has ended. Its number was given when it began.
  · obtain ⟨new, ended, later⟩ := inside.anchored
    rw [begun.2] at ended
    rw [begun.1] at later
    have count : r.count + 1 ≤ r'.count := begun.1 ▸ inside.count
    refine ⟨whole.count, whole.loops, ⟨(r.count, made) :: new, ?_, ?_⟩, fun layered => ?_, ?_⟩
    · exact congrArg ((r.count, made) :: ·) ended
    · exact List.forall_mem_cons.mpr ⟨le_rfl, fun e member => (Nat.le_succ _).trans (later e member)⟩
    · obtain ⟨stacked, below, named⟩ := whole.layered layered
      have fresh : r.count ∉ r'.anchored.map Prod.fst := by
        intro member
        obtain ⟨e, inside, same⟩ := List.mem_map.mp (ended ▸ member)
        rcases List.mem_append.mp inside with inNew | before
        · exact Nat.not_succ_le_self _ (same ▸ later e inNew)
        · exact Nat.lt_irrefl _ (same ▸ layered.below e before)
      have known (id : Nat) (member : .ref id ∈ made.all) := whole.accounts layered id (uses id member)
      exact ⟨.cons fresh own known stacked, List.forall_mem_cons.mpr ⟨count, below⟩, named⟩
    · intro _ id member
      obtain rfl : id = r.count := by simpa [Node.all, Properties.start] using member
      exact .inl List.mem_cons_self
  · exact whole.congr uses

theorem list (p : Properties) {tag : Tag} {items : List Node} {made : Node}
    (inside : (p.start r).2.Continues r' (Node.allItems items))
    (ends : some (p.finish (p.start r).1 (.list (p.start r).1 tag items) r') = some (made, r'')) :
    r.Continues r'' made.all := by
  have whole := finish p inside (fun _ => by simp : ∀ id, Node.list (p.start r).1 tag items ≠ .ref id)
    fun id member => by simpa [Node.all] using member
  rwa [Option.some.inj ends] at whole

theorem map (p : Properties) {tag : Tag} {entries : List (Node × Node)} {made : Node}
    (inside : (p.start r).2.Continues r' (Node.allEntries entries))
    (ends : some (p.finish (p.start r).1 (.map (p.start r).1 tag entries) r') = some (made, r'')) :
    r.Continues r'' made.all := by
  have whole := finish p inside (fun _ => by simp : ∀ id, Node.map (p.start r).1 tag entries ≠ .ref id)
    fun id member => by simpa [Node.all] using member
  rwa [Option.some.inj ends] at whole

theorem empty {p : Properties} {made : Node} {named : Bool}
    (read : (if named then Yaml.empty p r else none) = some (made, r')) : r.Continues r' made.all := by
  split at read
  · cases read
    exact leaf p true "" r
  · cases read

end Continues

end Reading

/-- What a reader reads, it goes on by. -/
def Reads {α : Type} (read : Reading → Option (α × Reading)) (all : α → List Node) : Prop :=
  ∀ r a r', read r = some (a, r') → r.Continues r' (all a)

/-- All readers of parts of a tree go on by what they read. -/
structure ReadTree (n : Nat) : Prop where
  node : ∀ place, Reads (node n place) Node.all
  nodeUnless : ∀ place stops, Reads (nodeUnless n place stops) Node.all
  blockItems : Reads (blockItems n) Node.allItems
  looseEntries : Reads (looseEntries n) Node.allItems
  blockEntries : Reads (blockEntries n) Node.allEntries
  valueAfter : ∀ place stops, Reads (valueAfter n place stops) Node.all
  flowItems : ∀ first, Reads (flowItems n first) Node.allItems
  flowEntries : ∀ first, Reads (flowEntries n first) Node.allEntries

namespace ReadTree

open Reading (Continues)

variable {n : Nat} (ih : ReadTree n)

include ih

theorem blockItems_succ : Reads (Yaml.blockItems (n + 1)) Node.allItems := by
  intro r items r' read
  unfold Yaml.blockItems at read
  split at read
  · obtain ⟨⟨item, r₁⟩, first, read⟩ := Option.bind_eq_some_iff.mp read
    obtain ⟨⟨rest, r₂⟩, others, same⟩ := Option.bind_eq_some_iff.mp read
    cases same
    exact ((Continues.skip r).trans (ih.nodeUnless _ _ _ _ _ first)).trans (ih.blockItems _ _ _ others)
  · cases read
    exact .skip r
  · split at read
    · cases read
      exact .of_eq rfl rfl rfl rfl
    · cases read

theorem looseEntries_succ : Reads (Yaml.looseEntries (n + 1)) Node.allItems := by
  intro r items r' read
  unfold Yaml.looseEntries at read
  split at read
  · obtain ⟨⟨item, r₁⟩, first, read⟩ := Option.bind_eq_some_iff.mp read
    obtain ⟨⟨rest, r₂⟩, others, same⟩ := Option.bind_eq_some_iff.mp read
    cases same
    exact ((Continues.skip r).trans (ih.nodeUnless _ _ _ _ _ first)).trans (ih.looseEntries _ _ _ others)
  · cases read
    exact .of_eq rfl rfl rfl rfl

theorem blockEntries_succ : Reads (Yaml.blockEntries (n + 1)) Node.allEntries := by
  intro r entries r' read
  unfold Yaml.blockEntries at read
  split at read
  · obtain ⟨⟨key, r₁⟩, first, read⟩ := Option.bind_eq_some_iff.mp read
    obtain ⟨⟨value, r₂⟩, second, read⟩ := Option.bind_eq_some_iff.mp read
    obtain ⟨⟨rest, r₃⟩, others, same⟩ := Option.bind_eq_some_iff.mp read
    cases same
    have entry := ((Continues.skip r).trans (ih.nodeUnless _ _ _ _ _ first)).trans
      (ih.valueAfter _ _ _ _ _ second)
    exact entry.trans (ih.blockEntries _ _ _ others)
  · cases read
    exact .skip r
  · split at read
    · cases read
      exact .of_eq rfl rfl rfl rfl
    · cases read

theorem nodeUnless_succ (place : Place) (stops : List Token) :
    Reads (Yaml.nodeUnless (n + 1) place stops) Node.all := by
  intro r made r' read
  unfold Yaml.nodeUnless at read
  split at read
  · cases read
    exact .absent (.of_eq rfl rfl rfl rfl)
  · exact ih.node _ _ _ _ read

theorem valueAfter_succ (place : Place) (stops : List Token) :
    Reads (Yaml.valueAfter (n + 1) place stops) Node.all := by
  intro r made r' read
  unfold Yaml.valueAfter at read
  split at read
  · exact (Continues.skip r).trans (ih.nodeUnless _ _ _ _ _ read)
  · cases read
    exact .absent (.of_eq rfl rfl rfl rfl)

theorem flowItems_succ (first : Bool) : Reads (Yaml.flowItems (n + 1) first) Node.allItems := by
  intro r items r' read
  unfold Yaml.flowItems at read
  split at read
  · cases read
    exact .skip r
  split at read
  · cases read
    exact .of_eq rfl rfl rfl rfl
  split at read
  · cases read
  extract_lets r₀ at read
  refine (Continues.comma first r).trans ?_
  split at read
  · obtain ⟨⟨key, r₁⟩, first, read⟩ := Option.bind_eq_some_iff.mp read
    obtain ⟨⟨value, r₂⟩, second, read⟩ := Option.bind_eq_some_iff.mp read
    obtain ⟨⟨rest, r₃⟩, others, same⟩ := Option.bind_eq_some_iff.mp read
    cases same
    have pair := ((Continues.skip r₀).trans (ih.nodeUnless _ _ _ _ _ first)).trans
      ((ih.valueAfter _ _ _ _ _ second).trans (.number r₂))
    -- A pair without braces is a mapping of its own, which has a number and no anchor.
    refine (pair.trans (ih.flowItems _ _ _ _ others)).congr fun id member => ?_
    simpa [Node.allItems, Node.all, Node.allEntries] using member
  split at read
  · cases read
    exact .skip r₀
  · obtain ⟨⟨item, r₁⟩, first, read⟩ := Option.bind_eq_some_iff.mp read
    obtain ⟨⟨rest, r₂⟩, others, same⟩ := Option.bind_eq_some_iff.mp read
    cases same
    exact (ih.node _ _ _ _ first).trans (ih.flowItems _ _ _ _ others)

theorem flowEntries_succ (first : Bool) : Reads (Yaml.flowEntries (n + 1) first) Node.allEntries := by
  intro r entries r' read
  unfold Yaml.flowEntries at read
  split at read
  · cases read
    exact .skip r
  split at read
  · cases read
    exact .of_eq rfl rfl rfl rfl
  split at read
  · cases read
  extract_lets r₀ at read
  refine (Continues.comma first r).trans ?_
  split at read
  · obtain ⟨⟨key, r₁⟩, first, read⟩ := Option.bind_eq_some_iff.mp read
    obtain ⟨⟨value, r₂⟩, second, read⟩ := Option.bind_eq_some_iff.mp read
    obtain ⟨⟨rest, r₃⟩, others, same⟩ := Option.bind_eq_some_iff.mp read
    cases same
    have entry := ((Continues.skip r₀).trans (ih.nodeUnless _ _ _ _ _ first)).trans
      (ih.valueAfter _ _ _ _ _ second)
    exact entry.trans (ih.flowEntries _ _ _ _ others)
  split at read
  · cases read
    exact .skip r₀
  · obtain ⟨⟨key, r₁⟩, first, read⟩ := Option.bind_eq_some_iff.mp read
    obtain ⟨⟨rest, r₂⟩, others, same⟩ := Option.bind_eq_some_iff.mp read
    cases same
    refine ((ih.node _ _ _ _ first).trans (ih.flowEntries _ _ _ _ others)).congr fun id member => ?_
    simpa [Node.allEntries, Node.absent, Node.all] using member

theorem node_succ (place : Place) : Reads (Yaml.node (n + 1) place) Node.all := by
  intro r made r' read
  unfold Yaml.node at read
  split at read
  · obtain ⟨found, named, same⟩ := Option.bind_eq_some_iff.mp read
    cases same
    exact ((Continues.use named).trans (.skip _)).congr fun id member => List.mem_append_left _ member
  · obtain ⟨⟨p, r₁⟩, front, read⟩ := Option.bind_eq_some_iff.mp read
    refine (Continues.properties front).trans ?_
    dsimp only at read
    split at read
    · cases read
      exact .absent (.of_eq rfl rfl rfl rfl)
    split at read
    · cases read
    split at read
    · split at read
      · obtain ⟨⟨items, r₂⟩, inside, ends⟩ := Option.bind_eq_some_iff.mp read
        exact .list p (ih.looseEntries _ _ _ inside) ends
      · exact .empty read
    · cases read
      exact (Continues.skip r₁).trans (.leaf p _ _ _)
    · obtain ⟨⟨items, r₂⟩, inside, ends⟩ := Option.bind_eq_some_iff.mp read
      exact .list p ((Continues.skip _).trans (ih.flowItems _ _ _ _ inside)) ends
    · obtain ⟨⟨entries, r₂⟩, inside, ends⟩ := Option.bind_eq_some_iff.mp read
      exact .map p ((Continues.skip _).trans (ih.flowEntries _ _ _ _ inside)) ends
    · split at read
      · exact .empty read
      · obtain ⟨⟨items, r₂⟩, inside, ends⟩ := Option.bind_eq_some_iff.mp read
        exact .list p ((Continues.skip _).trans (ih.blockItems _ _ _ inside)) ends
    · split at read
      · exact .empty read
      · obtain ⟨⟨entries, r₂⟩, inside, ends⟩ := Option.bind_eq_some_iff.mp read
        exact .map p ((Continues.skip _).trans (ih.blockEntries _ _ _ inside)) ends
    · exact .empty read

end ReadTree

theorem Reads.of_none {α : Type} {read : Reading → Option (α × Reading)} {all : α → List Node}
    (none : ∀ r, read r = none) : Reads read all := by
  intro r a r' some
  cases (none r).symm.trans some

theorem readTree (n : Nat) : ReadTree n := by
  induction n with
  | zero =>
    exact ⟨fun _ => .of_none fun _ => rfl, fun _ _ => .of_none fun _ => rfl, .of_none fun _ => rfl,
      .of_none fun _ => rfl, .of_none fun _ => rfl, fun _ _ => .of_none fun _ => rfl,
      fun _ => .of_none fun _ => rfl, fun _ => .of_none fun _ => rfl⟩
  | succ n ih =>
    exact ⟨ih.node_succ, ih.nodeUnless_succ, ih.blockItems_succ, ih.looseEntries_succ,
      ih.blockEntries_succ, ih.valueAfter_succ, ih.flowItems_succ, ih.flowEntries_succ⟩

theorem isLayered_of_continues {tokens : List Token} {handles : List (String × String)} {r : Reading}
    {root : Node} (goesOn : (Reading.start tokens handles).Continues r root.all) :
    (Document.of root r.anchored.reverse r.loops).IsLayered := by
  have start : (Reading.start tokens handles).IsLayered :=
    ⟨.nil, fun e member => absurd member List.not_mem_nil, fun e member => absurd member List.not_mem_nil⟩
  obtain ⟨stacked, -, -⟩ := goesOn.layered start
  refine ⟨?_, fun id member => ?_⟩
  · simpa [Document.of] using stacked
  · simpa [Document.of] using goesOn.accounts start id member

/-- The documents that are read from tokens are layered. -/
theorem document?_isLayered {tokens : List Token} {d : Document}
    (read : document? tokens = some (some d)) : d.IsLayered := by
  unfold document? at read
  extract_lets fuel finish at read
  have finished {tokens : List Token} {handles : List (String × String)} {found : Node × Reading}
      (made : finish found = some (some d))
      (goesOn : (Reading.start tokens handles).Continues found.2 found.1.all) : d.IsLayered := by
    simp only [finish] at made
    split at made
    · cases made
      exact isLayered_of_continues goesOn
    · cases made
  have reads {tokens : List Token} {handles : List (String × String)}
      (read : (node fuel .block (.start tokens handles) >>= finish) = some (some d)) : d.IsLayered := by
    obtain ⟨⟨root, r⟩, first, made⟩ := Option.bind_eq_some_iff.mp read
    exact finished made ((readTree fuel).node _ _ _ _ first)
  split at read
  case h_1 => cases read
  case h_4 => exact reads read
  all_goals
    obtain ⟨⟨handles, rest⟩, -, read⟩ := Option.bind_eq_some_iff.mp read
    dsimp only at read
    split at read
    · split at read
      · exact finished read (.absent (.of_eq rfl rfl rfl rfl))
      · exact reads read
    · split at read <;> cases read

end Drydock.Yaml
