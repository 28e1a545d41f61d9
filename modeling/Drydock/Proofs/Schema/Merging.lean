import Drydock.Proofs.Bindings
import Drydock.Proofs.Traversal
import Drydock.Schema.Field
import Mathlib

set_option autoImplicit false
set_option relaxedAutoImplicit false

/-!
What stands in a document that is read without problems. Main statements: a map of texts has one entry for
each text that a key of the mapping is taken as, with the last of the values under such keys; and it has
an entry for each key exactly if no two keys are taken as the same text.
-/

namespace Drydock

/-- Bindings that entries have been merged into: each name is there once, with the last of its values. -/
structure Merges {α : Type} (es : List (String × α)) (m : Bindings α) : Prop where
  keys : ∀ k, k ∈ m.keys ↔ k ∈ es.map Prod.fst
  last : ∀ k, m.get? k = ((es.filter fun e => e.1 = k).getLast?).map Prod.snd

namespace Merges

variable {α : Type} {es : List (String × α)} {m : Bindings α}

theorem ofList (es : List (String × α)) : Merges es (.ofList es) := by
  have last (k : String) : (Bindings.ofList es).get? k =
      ((es.filter fun e => e.1 = k).getLast?).map Prod.snd := by
    have written := Bindings.get?_insertAll_last .empty es k
    rwa [Bindings.get?_empty, Option.or_none] at written
  refine ⟨fun k => ?_, last⟩
  rw [Bindings.mem_keys_iff, ← Option.isSome_iff_exists, last, Option.isSome_map,
    List.getLast?_isSome, Ne, List.filter_eq_nil_iff]
  simp

/-- Nothing is lost exactly if the names differ. -/
theorem length_entries_eq_iff (merges : Merges es m) :
    m.entries.length = es.length ↔ (es.map Prod.fst).Nodup := by
  have alike : m.keys ⊆ es.map Prod.fst ∧ es.map Prod.fst ⊆ m.keys :=
    ⟨fun k => (merges.keys k).mp, fun k => (merges.keys k).mpr⟩
  -- The names of the map are those of the entries, each once, and all of them if they are as many.
  have part : List.Subperm m.keys (es.map Prod.fst) := m.keys_nodup.subperm alike.1
  have lengths : m.entries.length = es.length ↔ m.keys.length = (es.map Prod.fst).length := by
    rw [Bindings.keys, List.length_map, List.length_map]
  rw [lengths]
  constructor
  · intro same
    exact (part.perm_of_length_le same.ge).nodup_iff.mp m.keys_nodup
  · intro nodup
    exact part.length_le.antisymm (nodup.subperm alike.2).length_le

theorem get?_of_nodup (merges : Merges es m) (nodup : (es.map Prod.fst).Nodup) {e : String × α}
    (member : e ∈ es) : m.get? e.1 = some e.2 := by
  have among : e ∈ es.filter fun d => d.1 = e.1 := List.mem_filter.mpr ⟨member, by simp⟩
  obtain ⟨d, last⟩ := Option.isSome_iff_exists.mp
    (List.getLast?_isSome.mpr (List.ne_nil_of_mem among))
  obtain ⟨inList, same⟩ := List.mem_filter.mp (List.mem_of_mem_getLast? last)
  have own : d = e := List.inj_on_of_nodup_map nodup inList member (by simpa using same)
  rw [merges.last, last, own]
  rfl

theorem mem_of_mem_entries (merges : Merges es m) {e : String × α} (member : e ∈ m.entries) : e ∈ es := by
  have value : m.get? e.1 = some e.2 := Bindings.get?_eq_some_iff.mpr member
  rw [merges.last] at value
  obtain ⟨d, last, own⟩ := Option.map_eq_some_iff.mp value
  obtain ⟨inList, same⟩ := List.mem_filter.mp (List.mem_of_mem_getLast? last)
  rwa [show e = d from Prod.ext (of_decide_eq_true same).symm own.symm]

end Merges

namespace Schema

variable {α β : Type}

namespace Checked

theorem eq_pure_iff {x : Checked α} {a : α} : x = pure a ↔ x.value = a ∧ x.problems = [] := by
  obtain ⟨value, problems⟩ := x
  exact Checked.mk.injEq _ _ _ _ ▸ Iff.rfl

theorem bind_eq_pure_iff {x : Checked α} {f : α → Checked β} {b : β} :
    x >>= f = pure b ↔ ∃ a, x = pure a ∧ f a = pure b := by
  simp only [eq_pure_iff, value_bind, problems_bind, List.append_eq_nil_iff]
  constructor
  · rintro ⟨value, first, rest⟩
    exact ⟨x.value, ⟨rfl, first⟩, value, rest⟩
  · rintro ⟨a, ⟨rfl, first⟩, value, rest⟩
    exact ⟨value, first, rest⟩

theorem toExcept_eq_ok_iff {x : Checked α} {a : α} : x.toExcept = .ok a ↔ x = pure a := by
  obtain ⟨value, problems⟩ := x
  unfold toExcept
  split
  · rename_i none
    obtain rfl : problems = [] := none
    simp [pure]
  · rename_i some
    have other : (⟨value, problems⟩ : Checked α) ≠ pure a := fun same =>
      some (congrArg Checked.problems same)
    simp [other]

theorem misfit_ne_pure [Inhabited α] {at_ : Location} {a : α} : misfit at_ ≠ pure a := by
  intro same
  exact List.cons_ne_nil _ _ (congrArg Checked.problems same)

theorem ofOption_eq_pure_iff [Inhabited α] {at_ : Location} {o : Option α} {a : α} :
    ofOption at_ o = pure a ↔ o = some a := by
  cases o with
  | none => simp [ofOption, misfit_ne_pure]
  | some b => simp [ofOption, pure]

theorem collapse_eq_pure_iff {at_ : Location} {x : Checked α} {a : α} :
    collapse at_ x = pure a ↔ x = pure a := by
  obtain ⟨value, problems⟩ := x
  by_cases none : problems = []
  · simp [collapse, none]
  · simp [collapse, none, pure]

theorem pure_inj {a b : α} : (pure a : Checked α) = pure b ↔ a = b := by
  simp [eq_pure_iff]

theorem all_eq_pure_iff {read : α → Checked β} {items : List α} {made : List β} :
    all read items = pure made ↔ List.Forall₂ (fun a b => read a = pure b) items made := by
  induction items generalizing made with
  | nil => rw [all, pure_inj, List.forall₂_nil_left_iff, eq_comm]
  | cons a items ih =>
    simp only [all, bind_eq_pure_iff, ih, pure_inj, List.forall₂_cons_left_iff]
    constructor
    · rintro ⟨b, first, rest, others, same⟩
      exact ⟨b, rest, first, others, same.symm⟩
    · rintro ⟨b, rest, first, others, rfl⟩
      exact ⟨b, first, rest, others, rfl⟩

end Checked

section Inversion

variable {es : Entries} {at_ : Location} {name other : String} {v : Value} {a : α}

theorem fieldOr_eq_pure {absent : α} {read : Location → Value → Checked α}
    (made : fieldOr es at_ name other absent read = pure a) :
    (field? es name other = none ∧ a = absent) ∨
      ∃ found v at', field? es name other = some (found, v) ∧ read at' v = pure a := by
  unfold fieldOr at made
  split at made
  · rename_i found v known
    exact .inr ⟨found, v, _, known, made⟩
  · rename_i unknown
    exact .inl ⟨unknown, (Checked.pure_inj.mp made).symm⟩

/-- The entries of a mapping are merged by their keys as texts. -/
theorem texts_eq_pure {m : Bindings String} (made : texts at_ v = pure m) :
    (v = .null ∧ m = ∅) ∨ ∃ es, entries? v = some es ∧
      Merges (es.map fun e => (e.1.alone, e.2.asWritten)) m := by
  unfold texts at made
  split at made
  · exact .inl ⟨rfl, (Checked.pure_inj.mp made).symm⟩
  · rename_i es present known
    split at made
    · obtain rfl := Checked.pure_inj.mp made
      exact .inr ⟨es, known, .ofList _⟩
    · exact absurd made Checked.misfit_ne_pure
  · exact absurd made Checked.misfit_ne_pure

theorem record_eq_pure [Inhabited α] {read : Entries → Checked α} (made : record at_ read v = pure a) :
    ∃ es, entries? v = some es ∧ read es = pure a := by
  unfold record at made
  split at made
  · rename_i es known
    exact ⟨es, known, made⟩
  · exact absurd made Checked.misfit_ne_pure

theorem itemsFrom_eq_pure {read : Location → Value → Checked α} {i : Nat} {items : List Value}
    {made : List α} (whole : itemsFrom at_ read i items = pure made) :
    List.Forall₂ (fun v a => ∃ at', read at' v = pure a) items made := by
  induction items generalizing i made with
  | nil =>
    obtain rfl := Checked.pure_inj.mp whole
    exact .nil
  | cons v items ih =>
    simp only [itemsFrom, Checked.bind_eq_pure_iff, Checked.pure_inj] at whole
    obtain ⟨a, first, rest, others, rfl⟩ := whole
    exact .cons ⟨_, first⟩ (ih others)

theorem list_eq_pure {read : Location → Value → Checked α} {made : List α}
    (whole : list at_ read v = pure made) :
    ∃ items, items? v = some items ∧ List.Forall₂ (fun v a => ∃ at', read at' v = pure a) items made := by
  unfold list at whole
  split at whole
  · rename_i items known
    exact ⟨items, known, itemsFrom_eq_pure whole⟩
  · exact absurd whole Checked.misfit_ne_pure

/-- The entries of a table are merged by the texts that their keys are. -/
theorem table_eq_pure {read : String → Location → Value → Checked α} {m : Bindings α}
    (made : table at_ read v = pure m) :
    ∃ es bs, entries? v = some es ∧ Merges bs m ∧
      List.Forall₂ (fun e b => scalarText? e.1 = some b.1 ∧ ∃ at', read b.1 at' e.2 = pure b.2) es bs := by
  unfold table at made
  split at made
  · rename_i es known
    simp only [Checked.bind_eq_pure_iff, Checked.pure_inj, Checked.all_eq_pure_iff] at made
    obtain ⟨bs, each, rfl⟩ := made
    refine ⟨es, bs, known, .ofList bs, each.imp ?_⟩
    rintro e b ⟨k, key, value, first, rfl⟩
    exact ⟨Checked.ofOption_eq_pure_iff.mp key, _, first⟩
  · exact absurd made Checked.misfit_ne_pure

theorem orNull_eq_pure {read : Location → Value → Checked α} {absent : α}
    (made : orNull absent read at_ v = pure a) :
    (v = .null ∧ a = absent) ∨ (v ≠ .null ∧ read at_ v = pure a) := by
  unfold orNull at made
  split at made
  · exact .inl ⟨rfl, (Checked.pure_inj.mp made).symm⟩
  · rename_i present
    exact .inr ⟨present, made⟩

theorem optional_eq_pure {read : Location → Value → Checked α} {o : Option α}
    (made : optional read at_ v = pure o) : ∀ a ∈ o, read at_ v = pure a := by
  unfold optional at made
  split at made
  · obtain rfl := Checked.pure_inj.mp made
    simp
  · simp only [Checked.bind_eq_pure_iff, Checked.pure_inj] at made
    obtain ⟨b, value, rfl⟩ := made
    simpa using value

end Inversion

end Schema

end Drydock
