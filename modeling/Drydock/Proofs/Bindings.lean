import Drydock.Bindings
import Mathlib.Data.List.Nodup

set_option autoImplicit false
set_option relaxedAutoImplicit false

/-!
Named values written over others. Main statements: bindings are known by their names in order and by
their values, and to write values over others one set after another is to write both sets together.
-/

namespace Drydock

theorem valueOf?_eq_none_iff {α : Type} {k : String} {es : List (String × α)} :
    valueOf? k es = none ↔ k ∉ es.map Prod.fst := by
  induction es with
  | nil => simp [valueOf?]
  | cons e r ih =>
    by_cases h : e.1 = k
    · simp [valueOf?, h]
    · simp [valueOf?, h, ih, Ne.symm h]

theorem mem_putEntry {α : Type} {e : String × α} {key : String} {value : α} {es : List (String × α)}
    (member : e ∈ putEntry key value es) : e = (key, value) ∨ e ∈ es := by
  induction es with
  | nil => exact .inl (List.mem_singleton.mp member)
  | cons d r ih =>
    rw [putEntry] at member
    split at member
    · exact (List.mem_cons.mp member).imp_right (List.mem_cons_of_mem d)
    · rcases List.mem_cons.mp member with rfl | member
      · exact .inr List.mem_cons_self
      · exact (ih member).imp_right (List.mem_cons_of_mem d)

/-- Entries of different names are kept or dropped, each by its own value. -/
theorem valueOf?_filterMap {α β : Type} {k : String} {es : List (String × α)} (f : α → Option β)
    (nodup : (es.map Prod.fst).Nodup) :
    valueOf? k (es.filterMap fun e => (f e.2).map fun v => (e.1, v)) = (valueOf? k es).bind f := by
  induction es with
  | nil => rfl
  | cons e r ih =>
    obtain ⟨fresh, rest⟩ := List.nodup_cons.mp nodup
    by_cases h : e.1 = k
    · subst h
      have absent : valueOf? e.1 r = none := valueOf?_eq_none_iff.mpr fresh
      cases kept : f e.2 <;> simp [kept, valueOf?, ih rest, absent]
    · cases kept : f e.2 <;> simp [kept, valueOf?, ih rest, h]

theorem sublist_filterMap {α β : Type} (f : α → Option β) (es : List (String × α)) :
    ((es.filterMap fun e => (f e.2).map fun v => (e.1, v)).map Prod.fst).Sublist
      (es.map Prod.fst) := by
  induction es with
  | nil => exact .slnil
  | cons e r ih =>
    cases kept : f e.2 with
    | none => simpa [kept] using ih.cons e.1
    | some v => simpa [kept] using ih

namespace Bindings

variable {α : Type} {a b c : Bindings α}

private theorem entries_eq_of_get? {es es' : List (String × α)} (nodup : (es.map Prod.fst).Nodup)
    (keys : es.map Prod.fst = es'.map Prod.fst) (values : ∀ k, valueOf? k es = valueOf? k es') :
    es = es' := by
  induction es generalizing es' with
  | nil => exact (List.map_eq_nil_iff.mp keys.symm).symm
  | cons e r ih =>
    cases es' with
    | nil => simp at keys
    | cons e' r' =>
      obtain ⟨fresh, rest⟩ := List.nodup_cons.mp nodup
      obtain ⟨same, others⟩ := List.cons.inj keys
      have value : e.2 = e'.2 := by simpa [valueOf?, same] using values e.1
      rw [Prod.ext same value, ih rest others fun k => ?_]
      by_cases h : e.1 = k
      · subst h
        rw [valueOf?_eq_none_iff.mpr fresh, valueOf?_eq_none_iff.mpr (others ▸ fresh)]
      · simpa [valueOf?, h, same ▸ h] using values k

theorem ext_get? (keys : a.keys = b.keys) (values : ∀ k, a.get? k = b.get? k) : a = b :=
  ext (entries_eq_of_get? a.nodup keys values)

theorem get?_ofList_singleton (k : String) (v : α) (other : String) :
    (ofList [(k, v)]).get? other = if other = k then some v else none :=
  get?_insert ∅ k other v

theorem keys_insertAll {es : List (String × α)} (nodup : (es.map Prod.fst).Nodup) :
    (c.insertAll es).keys = c.keys ++ (es.map Prod.fst).filter (· ∉ c.keys) := by
  induction es generalizing c with
  | nil => simp
  | cons e r ih =>
    -- The first name is new to the others, so that it is there now does not keep out any of them.
    obtain ⟨fresh, rest⟩ := List.nodup_cons.mp nodup
    rw [insertAll_cons, ih rest, keys_insert, List.map_cons]
    split
    · rename_i known
      rw [List.filter_cons_of_neg (by simpa using known)]
    · rename_i new
      have others : (r.map Prod.fst).filter (· ∉ c.keys ++ [e.1]) =
          (r.map Prod.fst).filter (· ∉ c.keys) := by
        refine List.filter_congr fun k member => ?_
        have other : k ≠ e.1 := fun same => fresh (same ▸ member)
        simp [other]
      rw [others, List.filter_cons_of_pos (by simpa using new), List.append_assoc,
        List.singleton_append]

theorem get?_insertAll {es : List (String × α)} (nodup : (es.map Prod.fst).Nodup) (k : String) :
    (c.insertAll es).get? k = (valueOf? k es).or (c.get? k) := by
  induction es generalizing c with
  | nil => rfl
  | cons e r ih =>
    obtain ⟨fresh, rest⟩ := List.nodup_cons.mp nodup
    rw [insertAll_cons, ih rest, get?_insert, valueOf?]
    by_cases h : e.1 = k
    · subst h
      rw [valueOf?_eq_none_iff.mpr fresh, if_pos rfl, if_pos rfl]
      rfl
    · rw [if_neg h, if_neg (Ne.symm h)]

/-- Of entries that are written one after another, the last one of a name counts. -/
theorem get?_insertAll_last (b : Bindings α) (es : List (String × α)) (k : String) :
    (b.insertAll es).get? k = (((es.filter fun e => e.1 = k).getLast?).map Prod.snd).or (b.get? k) := by
  induction es generalizing b with
  | nil => rfl
  | cons e r ih =>
    rw [insertAll_cons, ih, get?_insert]
    by_cases h : e.1 = k
    · rw [List.filter_cons_of_pos (by simpa using h), if_pos h.symm]
      cases r.filter (fun e => e.1 = k) with
      | nil => simp
      | cons x xs => simp [List.getLast?_cons]
    · rw [List.filter_cons_of_neg (by simpa using h), if_neg (Ne.symm h)]

theorem keys_update (c a : Bindings α) : (c.update a).keys = c.keys ++ a.keys.filter (· ∉ c.keys) :=
  keys_insertAll a.nodup

theorem get?_update (c a : Bindings α) (k : String) :
    (c.update a).get? k = (a.get? k).or (c.get? k) :=
  get?_insertAll a.nodup k

theorem update_update (c a b : Bindings α) : (c.update a).update b = c.update (a.update b) := by
  refine ext_get? ?_ fun k => ?_
  · simp only [keys_update, List.filter_append, List.filter_filter, List.append_assoc,
      List.append_cancel_left_eq]
    refine List.filter_congr fun k _ => ?_
    by_cases known : k ∈ c.keys <;> by_cases new : k ∈ a.keys <;> simp [known, new]
  · simp only [get?_update, Option.or_assoc]

theorem insertAll_append (b : Bindings α) (es es' : List (String × α)) :
    b.insertAll (es ++ es') = (b.insertAll es).insertAll es' :=
  List.foldl_append

/-- Entries that are written one after another are written as one set. -/
theorem insertAll_eq_update (b : Bindings α) (es : List (String × α)) :
    b.insertAll es = b.update (ofList es) := by
  induction es generalizing b with
  | nil => rfl
  | cons e r ih =>
    have whole : ofList (e :: r) = (ofList [e]).update (ofList r) := ih _
    rw [insertAll_cons, ih, whole, ← update_update]
    rfl

theorem ofList_append (es es' : List (String × α)) :
    ofList (es ++ es') = (ofList es).update (ofList es') := by
  rw [← insertAll_eq_update]
  exact insertAll_append ∅ es es'

/-- Only entries that are written are there afterwards. -/
theorem mem_of_mem_entries_insertAll {e : String × α} {b : Bindings α} {es : List (String × α)}
    (member : e ∈ (b.insertAll es).entries) : e ∈ b.entries ∨ e ∈ es := by
  induction es generalizing b with
  | nil => exact .inl member
  | cons d r ih =>
    rcases ih member with here | later
    · rcases mem_putEntry here with rfl | before
      · exact .inr List.mem_cons_self
      · exact .inl before
    · exact .inr (List.mem_cons_of_mem d later)

theorem mem_of_mem_entries_ofList {e : String × α} {es : List (String × α)}
    (member : e ∈ (ofList es).entries) : e ∈ es :=
  (mem_of_mem_entries_insertAll member).resolve_left List.not_mem_nil

/-- Sets of bindings written over each other, from the first to the last. -/
def updates (bs : List (Bindings α)) : Bindings α :=
  bs.foldl update ∅

theorem empty_update (b : Bindings α) : (∅ : Bindings α).update b = b :=
  ext (entries_ofList b.nodup)

theorem updates_concat (bs : List (Bindings α)) (b : Bindings α) :
    updates (bs ++ [b]) = (updates bs).update b :=
  List.foldl_concat update ∅ b bs

end Bindings

end Drydock
