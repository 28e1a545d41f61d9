import Drydock.Proofs.Yaml.Tree
import Mathlib

set_option autoImplicit false
set_option relaxedAutoImplicit false

/-!
The search for faults, level by level, in a document of which every node is what its tag says. Main
statement: it finds a repeated key exactly if some mapping of the document has one, at any depth.
-/

namespace Drydock.Yaml

/-- The fault of a repeated key. -/
def LoadFault.ofRepeated (s : Scalar) : LoadFault :=
  if s.isWritable then .duplicateKey s else .unwritableKey

namespace Document

variable {d : Document} {n p : Node}

/-- Keys are gone through in order, each beside all that stand before it. -/
theorem keyFault?_cases {keys : List (Node × Scalar)} (scalars : ∀ e ∈ keys, d.keyScalar e.1 = .ok e.2)
    (seen : List (Node × Scalar)) :
    (d.keyFault? seen (keys.map Prod.fst) = none ∧
      (∀ e ∈ keys, ∀ earlier ∈ seen, d.isSameKey earlier e = false) ∧
      keys.Pairwise fun earlier e => d.isSameKey earlier e = false) ∨
    ∃ front again back, keys = front ++ again :: back ∧
      (∃ first, (first ∈ seen ∨ first ∈ front) ∧ d.isSameKey first again = true) ∧
      d.keyFault? seen (keys.map Prod.fst) = some (.ofRepeated again.2) := by
  induction keys generalizing seen with
  | nil => exact .inl ⟨rfl, by simp, .nil⟩
  | cons e rest ih =>
    have own : d.keyScalar e.1 = .ok e.2 := scalars e List.mem_cons_self
    by_cases repeated : seen.any fun earlier => d.isSameKey earlier e
    · obtain ⟨first, inSeen, same⟩ := List.any_eq_true.mp repeated
      refine .inr ⟨[], e, rest, rfl, ⟨first, .inl inSeen, same⟩, ?_⟩
      rw [List.map_cons, keyFault?, own]
      exact if_pos repeated
    · have passed : d.keyFault? seen ((e :: rest).map Prod.fst) =
          d.keyFault? (e :: seen) (rest.map Prod.fst) := by
        rw [List.map_cons, keyFault?, own]
        exact if_neg repeated
      have apart : ∀ earlier ∈ seen, d.isSameKey earlier e = false := by simpa using repeated
      rw [passed]
      rcases ih (fun e member => scalars e (List.mem_cons_of_mem _ member)) (e :: seen) with
        ⟨none, others, pairwise⟩ | ⟨front, again, back, rfl, ⟨first, earlier, same⟩, fault⟩
      · refine .inl ⟨none, List.forall_mem_cons.mpr ⟨apart, ?_⟩, List.pairwise_cons.mpr ⟨?_, pairwise⟩⟩
        · exact fun f member earlier inSeen => others f member earlier (List.mem_cons_of_mem _ inSeen)
        · exact fun f member => others f member e List.mem_cons_self
      · refine .inr ⟨e :: front, again, back, rfl, ⟨first, ?_, same⟩, fault⟩
        rcases earlier with inSeen | inFront
        · rcases List.mem_cons.mp inSeen with rfl | inSeen
          · exact .inr List.mem_cons_self
          · exact .inl inSeen
        · exact .inr (List.mem_cons_of_mem _ inFront)

theorem Keys.unique {keys keys' : List (Node × Scalar)} (left : d.Keys n keys)
    (right : d.Keys n keys') : keys = keys' := by
  obtain ⟨map, -, nodes, scalars⟩ := left
  obtain ⟨map', -, nodes', scalars'⟩ := right
  cases map.symm.trans map'
  have same : keys.map Prod.fst = keys'.map Prod.fst := nodes.symm.trans nodes'
  clear nodes nodes' map map'
  induction keys generalizing keys' with
  | nil => exact (List.map_eq_nil_iff.mp same.symm).symm
  | cons e rest ih =>
    obtain ⟨e', rest', rfl, key, others⟩ := List.map_eq_cons_iff.mp same.symm
    have first := scalars e List.mem_cons_self
    have second := scalars' e' List.mem_cons_self
    rw [key, first] at second
    rw [Prod.ext key.symm (Except.ok.inj second)]
    congr 1
    exact ih (fun e member => scalars e (List.mem_cons_of_mem _ member))
      (fun e member => scalars' e (List.mem_cons_of_mem _ member)) others.symm

theorem tag_of_resolve_map {id : Nat} {tag : Tag} {entries : List (Node × Node)}
    (map : d.resolve n = .map id tag entries) : d.tag n = tag := by
  rw [Document.tag, map]

theorem tag_of_resolve_list {id : Nat} {tag : Tag} {items : List Node}
    (list : d.resolve n = .list id tag items) : d.tag n = tag := by
  rw [Document.tag, list]

theorem isCollection_of_mem_parts (part : p ∈ d.parts n) : (d.tag n).isCollection = true := by
  unfold parts at part
  split at part
  · rename_i list
    rw [tag_of_resolve_list list]
    rfl
  · rename_i list
    rw [tag_of_resolve_list list]
    rfl
  · rename_i map
    rw [tag_of_resolve_map map]
    rfl
  · rename_i map
    rw [tag_of_resolve_map map]
    rfl
  · cases part

theorem Keys.isCollection {keys : List (Node × Scalar)} (keys : d.Keys n keys) :
    (d.tag n).isCollection = true := by
  obtain ⟨map, kind, -, -⟩ := keys
  rw [tag_of_resolve_map map]
  rcases kind with rfl | rfl <;> rfl

theorem Repeats.isCollection {s : Scalar} (repeated : d.Repeats n s) : (d.tag n).isCollection = true := by
  obtain ⟨keys, -, -, -⟩ := repeated
  exact keys.isCollection

theorem outerFault?_of_fits (fits : d.Fits n) : d.outerFault? n = none := by
  unfold outerFault?
  split
  · rfl
  · rename_i single
    rcases fits with ⟨kind, value⟩ | list | ⟨list, -⟩ | keys
    · rw [value]
    · exact absurd (congrArg Tag.isCollection (tag_of_resolve_list list)) single
    · exact absurd (congrArg Tag.isCollection (tag_of_resolve_list list)) single
    · exact absurd keys.isCollection single

theorem pairContent_eq {item : Node}
    (single : ∃ id tag k v, d.resolve item = .map id tag [(k, v)]) :
    d.pairContent item = (d.pairParts item).map .ok := by
  obtain ⟨id, tag, k, v, map⟩ := single
  simp [pairContent, pairParts, map]

theorem mapContent_eq {keys : List (Node × Scalar)} {id : Nat} {tag : Tag} {entries : List (Node × Node)}
    (nodes : entries.map Prod.fst = keys.map Prod.fst) :
    d.mapContent (.map id tag entries) =
      match d.keyFault? [] (keys.map Prod.fst) with
      | some fault => [.error fault]
      | none => (entries.map Prod.snd).map .ok := by
  rw [mapContent, nodes, List.map_map]
  rfl

/-- A collection is filled with its parts, unless it repeats a key. -/
theorem content_cases (fits : d.Fits n) (collection : (d.tag n).isCollection = true) :
    (d.content n = (d.parts n).map .ok ∧ ∀ s, ¬ d.Repeats n s) ∨
      ∃ s, d.Repeats n s ∧ d.content n = [.error (.ofRepeated s)] := by
  rcases fits with ⟨kind, -⟩ | list | @⟨id, items, list, single⟩ | keys
  · rw [kind] at collection
    cases collection
  · refine .inl ⟨by rw [content, parts, list]; rfl, ?_⟩
    rintro s ⟨⟨map, -, -, -⟩, -, -, -⟩
    cases list.symm.trans map
  · refine .inl ⟨?_, ?_⟩
    · have filled : d.content n = items.flatMap d.pairContent := by
        rw [content, list]
        rfl
      have made : d.parts n = items.flatMap d.pairParts := by
        rw [parts, list]
      rw [filled, made, List.map_flatMap]
      exact List.flatMap_congr fun item member => pairContent_eq (single item member)
    · rintro s ⟨⟨map, -, -, -⟩, -, -, -⟩
      cases list.symm.trans map
  · have whole := keys
    obtain ⟨map, kind, nodes, scalars⟩ := keys
    rename_i keys id tag entries
    have filled : d.content n = d.mapContent (.map id tag entries) := by
      rw [content, map]
      rcases kind with rfl | rfl <;> rfl
    have made : d.parts n = entries.map Prod.snd := by
      rw [parts, map]
      rcases kind with rfl | rfl <;> rfl
    rw [filled, made, mapContent_eq nodes]
    rcases keyFault?_cases scalars [] with
      ⟨none, -, apart⟩ | ⟨front, again, back, rfl, ⟨first, earlier, same⟩, fault⟩
    · refine .inl ⟨by rw [none], ?_⟩
      rintro s ⟨other, earlier, same, -⟩
      rw [whole.unique other, List.pairwise_append] at apart
      rw [apart.2.2 _ earlier _ List.mem_cons_self] at same
      cases same
    · refine .inr ⟨again.2, ?_, by rw [fault]⟩
      rcases earlier with none | inFront
      · cases none
      · exact .keys whole inFront same rfl

/-- Only a repeated key keeps a collection from being filled. -/
theorem innerFault?_cases (fits : d.Fits n) (collection : (d.tag n).isCollection = true)
    (parts : ∀ p ∈ d.parts n, d.Fits p) :
    (d.innerFault? n = none ∧ (∀ s, ¬ d.Repeats n s) ∧
      ∀ p, p ∈ d.collections n ↔ p ∈ d.parts n ∧ (d.tag p).isCollection = true) ∨
    ∃ s, d.Repeats n s ∧ d.innerFault? n = some (.ofRepeated s) ∧ d.collections n = [] := by
  unfold innerFault? collections
  rcases content_cases fits collection with ⟨content, apart⟩ | ⟨s, repeated, content⟩
  · rw [content, List.filterMap_map]
    refine .inl ⟨?_, apart, fun p => ?_⟩
    · rw [List.findSome?_eq_none_iff]
      intro found member
      obtain ⟨part, inParts, rfl⟩ := List.mem_map.mp member
      exact outerFault?_of_fits (parts part inParts)
    · simp [List.mem_filterMap]
  · rw [content]
    exact .inr ⟨s, repeated, rfl, rfl⟩

section Fresh

variable {seen : List Nat} {ns : List Node} {id : Nat}

theorem mem_of_mem_fresh (member : n ∈ (fresh seen ns).1) : n ∈ ns := by
  fun_induction fresh seen ns with
  | case1 => exact member
  | case2 seen id r old ih => exact List.mem_cons_of_mem _ (ih member)
  | case3 seen id r new more ih =>
    rcases List.mem_cons.mp member with rfl | later
    · exact List.mem_cons_self
    · exact List.mem_cons_of_mem _ (ih later)
  | case4 seen m r noRef more ih =>
    rcases List.mem_cons.mp member with rfl | later
    · exact List.mem_cons_self
    · exact List.mem_cons_of_mem _ (ih later)

theorem mem_fresh_of_mem (member : n ∈ ns) : n ∈ (fresh seen ns).1 ∨ ∃ id ∈ seen, n = .ref id := by
  fun_induction fresh seen ns with
  | case1 => cases member
  | case2 seen id r old ih =>
    rcases List.mem_cons.mp member with rfl | later
    · exact .inr ⟨id, by simpa using old, rfl⟩
    · exact ih later
  | case3 seen id r new more ih =>
    rcases List.mem_cons.mp member with rfl | later
    · exact .inl List.mem_cons_self
    · rcases ih later with found | ⟨other, old, rfl⟩
      · exact .inl (List.mem_cons_of_mem _ found)
      · rcases List.mem_cons.mp old with rfl | old
        · exact .inl List.mem_cons_self
        · exact .inr ⟨other, old, rfl⟩
  | case4 seen m r noRef more ih =>
    rcases List.mem_cons.mp member with rfl | later
    · exact .inl List.mem_cons_self
    · exact (ih later).imp_left (List.mem_cons_of_mem _)

theorem mem_fresh_of_mem_seen (member : id ∈ (fresh seen ns).2) :
    id ∈ seen ∨ .ref id ∈ (fresh seen ns).1 := by
  fun_induction fresh seen ns with
  | case1 => exact .inl member
  | case2 seen id' r old ih => exact ih member
  | case3 seen id' r new more ih =>
    rcases ih member with old | found
    · rcases List.mem_cons.mp old with rfl | old
      · exact .inr List.mem_cons_self
      · exact .inl old
    · exact .inr (List.mem_cons_of_mem _ found)
  | case4 seen m r noRef more ih => exact (ih member).imp_right (List.mem_cons_of_mem _)

end Fresh

/-- A node that the search goes through. -/
def IsVisited (d : Document) (n : Node) : Prop :=
  d.Holds n ∧ (d.tag n).isCollection = true

/-- The nodes gone through repeat no key, and what they are made of is among them or stands at the next
level. -/
def IsCleared (d : Document) (past : Finset Node) (level : List Node) : Prop :=
  ∀ n ∈ past, (∀ s, ¬ d.Repeats n s) ∧
    ∀ p ∈ d.parts n, (d.tag p).isCollection = true → p ∈ past ∨ p ∈ level

/-- A level that brings up no new node is the last one. -/
theorem IsCleared.last {past : Finset Node} {level : List Node} (cleared : d.IsCleared past level)
    (old : ∀ n ∈ level, n ∈ past) :
    ∃ all : Finset Node, d.IsCleared all [] ∧ ∀ n, n ∈ past ∨ n ∈ level → n ∈ all := by
  have same (n : Node) (member : n ∈ past ∨ n ∈ level) : n ∈ past := member.elim id (old n)
  exact ⟨past, fun n member => ⟨(cleared n member).1,
    fun p part collection => .inl (same p ((cleared n member).2 p part collection))⟩, same⟩

section Search

variable (fits : ∀ n, d.Holds n → d.Fits n)

include fits

theorem IsVisited.innerFault?_cases (visited : d.IsVisited n) :
    (d.innerFault? n = none ∧ (∀ s, ¬ d.Repeats n s) ∧
      ∀ p, p ∈ d.collections n ↔ p ∈ d.parts n ∧ (d.tag p).isCollection = true) ∨
    ∃ s, d.Repeats n s ∧ d.innerFault? n = some (.ofRepeated s) ∧ d.collections n = [] :=
  Document.innerFault?_cases (fits n visited.1) visited.2 fun p part => fits p (.part visited.1 part)

theorem IsVisited.collections (visited : d.IsVisited n) : ∀ p ∈ d.collections n, d.IsVisited p := by
  intro p member
  rcases visited.innerFault?_cases fits with ⟨-, -, filled⟩ | ⟨s, -, -, none⟩
  · obtain ⟨part, collection⟩ := (filled p).mp member
    exact ⟨.part visited.1 part, collection⟩
  · rw [none] at member
    cases member

theorem isVisited_of_mem_fresh {seen : List Nat} {level : List Node}
    (visited : ∀ n ∈ level, d.IsVisited n) :
    ∀ n ∈ (fresh seen (level.flatMap d.collections)).1, d.IsVisited n := by
  intro p member
  obtain ⟨n, inLevel, inside⟩ := List.mem_flatMap.mp (mem_of_mem_fresh member)
  exact (visited n inLevel).collections fits p inside

/-- A fault that is found is that of a repeated key. -/
theorem levelFault?_eq_some {fuel : Nat} {seen : List Nat} {level : List Node}
    (visited : ∀ n ∈ level, d.IsVisited n) {fault : LoadFault}
    (found : d.levelFault? fuel seen level = some fault) :
    ∃ n s, d.Holds n ∧ d.Repeats n s ∧ fault = .ofRepeated s := by
  fun_induction levelFault? d fuel seen level with
  | case1 => cases found
  | case2 => cases found
  | case3 fuel seen level nonempty first inLevel =>
    obtain ⟨n, member, own⟩ := List.exists_of_findSome?_eq_some inLevel
    rcases (visited n member).innerFault?_cases fits with ⟨none, -, -⟩ | ⟨s, repeated, some, -⟩
    · cases none.symm.trans own
    · refine ⟨n, s, (visited n member).1, repeated, ?_⟩
      exact (Option.some.inj found).symm.trans (Option.some.inj (own.symm.trans some))
  | case4 fuel seen level nonempty none next ih => exact ih (isVisited_of_mem_fresh fits visited) found

open Classical in
/-- If nothing is found then there is nothing to find: the level can be completed to nodes without repeated
keys, among which is all that they are made of. Every level makes the rest of the document smaller or is
the last one. -/
theorem levelFault?_eq_none {fuel : Nat} {seen : List Nat} {level : List Node}
    (visited : ∀ n ∈ level, d.IsVisited n) (none : d.levelFault? fuel seen level = none)
    {past : Finset Node} (cleared : d.IsCleared past level)
    (known : ∀ id ∈ seen, .ref id ∈ past ∨ .ref id ∈ level)
    (enough : (d.nodes.toFinset \ past).card ≤ fuel) :
    ∃ all : Finset Node, d.IsCleared all [] ∧ ∀ n, n ∈ past ∨ n ∈ level → n ∈ all := by
  fun_induction levelFault? d fuel seen level generalizing past with
  | case1 seen level =>
    have whole : d.nodes.toFinset ⊆ past :=
      Finset.sdiff_eq_empty_iff_subset.mp (Finset.card_eq_zero.mp (Nat.le_zero.mp enough))
    exact cleared.last fun n member => whole (List.mem_toFinset.mpr (visited n member).1.mem_nodes)
  | case2 => exact cleared.last fun n member => by cases member
  | case3 => cases none
  | case4 fuel seen level nonempty noFault next ih =>
    by_cases old : ∀ n ∈ level, n ∈ past
    · exact cleared.last old
    -- Some node of the level is new, so that fewer are left to go through.
    let now : Finset Node := past ∪ level.toFinset
    have mem_now (n : Node) : n ∈ now ↔ n ∈ past ∨ n ∈ level := by
      simp [now]
    have clearedNow : d.IsCleared now next.1 := by
      intro n member
      rcases (mem_now n).mp member with before | inLevel
      · refine ⟨(cleared n before).1, fun p part collection => .inl ((mem_now p).mpr ?_)⟩
        exact (cleared n before).2 p part collection
      · rcases (visited n inLevel).innerFault?_cases fits with ⟨-, apart, filled⟩ | ⟨s, -, fault, -⟩
        · refine ⟨apart, fun p part collection => ?_⟩
          have inside : p ∈ level.flatMap d.collections :=
            List.mem_flatMap.mpr ⟨n, inLevel, (filled p).mpr ⟨part, collection⟩⟩
          rcases mem_fresh_of_mem inside with new | ⟨id, before, rfl⟩
          · exact .inr new
          · exact .inl ((mem_now _).mpr (known id before))
        · cases (List.findSome?_eq_none_iff.mp noFault n inLevel).symm.trans fault
    have knownNow (id : Nat) (member : id ∈ next.2) : .ref id ∈ now ∨ .ref id ∈ next.1 :=
      (mem_fresh_of_mem_seen member).imp_left fun before => (mem_now _).mpr (known id before)
    have fewer : (d.nodes.toFinset \ now).card ≤ fuel := by
      obtain ⟨n, inLevel, new⟩ : ∃ n, n ∈ level ∧ n ∉ past := by simpa using old
      have smaller : d.nodes.toFinset \ now ⊂ d.nodes.toFinset \ past := by
        rw [Finset.ssubset_iff_of_subset (Finset.sdiff_subset_sdiff le_rfl Finset.subset_union_left)]
        refine ⟨n, ?_, ?_⟩
        · simp [new, (visited n inLevel).1.mem_nodes]
        · simp [inLevel]
      exact Nat.le_of_lt_succ ((Finset.card_lt_card smaller).trans_le enough)
    obtain ⟨all, closed, covers⟩ :=
      ih (isVisited_of_mem_fresh fits visited) none clearedNow knownNow fewer
    exact ⟨all, closed, fun n member => covers n (.inl ((mem_now n).mpr member))⟩

/-- The search finds a repeated key, or there is none. -/
theorem fault?_cases :
    (d.fault? = none ∧ ∀ n, d.Holds n → ∀ s, ¬ d.Repeats n s) ∨
      ∃ n s, d.Holds n ∧ d.Repeats n s ∧ d.fault? = some (.ofRepeated s) := by
  classical
  have outer : d.outerFault? d.root = none := outerFault?_of_fits (fits d.root .root)
  by_cases collection : (d.tag d.root).isCollection = true
  · have searched : d.fault? = d.levelFault? d.size (fresh [] [d.root]).2 (fresh [] [d.root]).1 := by
      rw [fault?, outer]
      exact if_pos collection
    have visited : ∀ n ∈ (fresh [] [d.root]).1, d.IsVisited n := by
      intro n member
      obtain rfl := List.mem_singleton.mp (mem_of_mem_fresh member)
      exact ⟨.root, collection⟩
    cases found : d.fault? with
    | some fault =>
      obtain ⟨n, s, holds, repeated, rfl⟩ :=
        levelFault?_eq_some fits visited (searched.symm.trans found)
      exact .inr ⟨n, s, holds, repeated, rfl⟩
    | none =>
      have known : ∀ id ∈ (fresh [] [d.root]).2,
          .ref id ∈ (∅ : Finset Node) ∨ .ref id ∈ (fresh [] [d.root]).1 :=
        fun id member => .inr ((mem_fresh_of_mem_seen member).resolve_left List.not_mem_nil)
      have enough : (d.nodes.toFinset \ ∅).card ≤ d.size := by
        rw [Finset.sdiff_empty, ← length_nodes]
        exact List.toFinset_card_le _
      obtain ⟨all, closed, covers⟩ := levelFault?_eq_none fits visited (searched.symm.trans found)
        (fun n member => absurd member (Finset.notMem_empty n)) known enough
      have reached (n : Node) (holds : d.Holds n) : (d.tag n).isCollection = true → n ∈ all := by
        induction holds with
        | root =>
          intro _
          refine covers d.root (.inr ?_)
          exact (mem_fresh_of_mem List.mem_cons_self).resolve_right (by simp)
        | @part n p around part ih =>
          intro inner
          have gone := ih (isCollection_of_mem_parts part)
          exact ((closed n gone).2 p part inner).resolve_right List.not_mem_nil
      refine .inl ⟨rfl, fun n holds s repeated => ?_⟩
      exact (closed n (reached n holds repeated.isCollection)).1 s repeated
  · have alone (n : Node) (holds : d.Holds n) : n = d.root := by
      induction holds with
      | root => rfl
      | part _ part ih => exact absurd (isCollection_of_mem_parts (ih ▸ part)) collection
    refine .inl ⟨?_, fun n holds s repeated => collection (alone n holds ▸ repeated.isCollection)⟩
    rw [fault?, outer]
    exact if_neg collection

end Search

end Document

end Drydock.Yaml
