set_option autoImplicit false
set_option relaxedAutoImplicit false

/-!
Named values in the order in which their names first appeared. Writing a name that is present keeps
its place; main statements: what `get?` answers after a write, and how a write changes the names.
-/

namespace Drydock

/-- Writes one entry of a list of named values: in place, or at the end. -/
def putEntry {α : Type} (key : String) (value : α) : List (String × α) → List (String × α)
  | [] => [(key, value)]
  | e :: r => if e.1 = key then (key, value) :: r else e :: putEntry key value r

/-- Finds the first entry of a name. -/
def valueOf? {α : Type} (key : String) : List (String × α) → Option α
  | [] => none
  | e :: r => if e.1 = key then some e.2 else valueOf? key r

theorem map_fst_putEntry {α : Type} (key : String) (value : α) (es : List (String × α)) :
    (putEntry key value es).map Prod.fst =
      if key ∈ es.map Prod.fst then es.map Prod.fst else es.map Prod.fst ++ [key] := by
  induction es with
  | nil => simp [putEntry]
  | cons e r ih =>
    by_cases h : e.1 = key
    · simp [putEntry, h]
    · simp only [putEntry, h, if_false, List.map_cons, ih, List.mem_cons, Ne.symm h, false_or]
      split <;> simp

theorem valueOf?_putEntry {α : Type} (key k : String) (value : α) (es : List (String × α)) :
    valueOf? k (putEntry key value es) = if k = key then some value else valueOf? k es := by
  induction es with
  | nil => by_cases h : key = k <;> simp [putEntry, valueOf?, h, eq_comm]
  | cons e r ih =>
    by_cases h : e.1 = key <;> by_cases hk : k = key <;> grind [putEntry, valueOf?]

theorem valueOf?_eq_some_iff {α : Type} {k : String} {value : α} {es : List (String × α)}
    (nodup : (es.map Prod.fst).Nodup) : valueOf? k es = some value ↔ (k, value) ∈ es := by
  induction es with
  | nil => simp [valueOf?]
  | cons e r ih =>
    obtain ⟨fresh, rest⟩ := List.nodup_cons.mp nodup
    by_cases h : e.1 = k
    · have absent : (k, value) ∉ r := fun member => fresh (h ▸ List.mem_map_of_mem member)
      simp [valueOf?, h, absent, Prod.ext_iff, eq_comm]
    · simp [valueOf?, h, ih rest, Prod.ext_iff, Ne.symm h]

theorem putEntry_of_fresh {α : Type} {key : String} {value : α} {es : List (String × α)}
    (fresh : key ∉ es.map Prod.fst) : putEntry key value es = es ++ [(key, value)] := by
  induction es with
  | nil => rfl
  | cons e r ih =>
    have h : e.1 ≠ key := fun h => fresh (h ▸ List.mem_cons_self)
    simp only [putEntry, h, if_false, List.cons_append]
    rw [ih fun member => fresh (List.mem_cons_of_mem _ member)]

/-- Named values, each name once, in order of first appearance. -/
structure Bindings (α : Type) where
  entries : List (String × α)
  nodup : (entries.map Prod.fst).Nodup
  deriving DecidableEq, Repr

namespace Bindings

variable {α : Type} {β : Type}

/-- No names. -/
def empty : Bindings α := ⟨[], List.nodup_nil⟩

instance : Inhabited (Bindings α) := ⟨empty⟩

instance : EmptyCollection (Bindings α) := ⟨empty⟩

/-- The names in order. -/
def keys (b : Bindings α) : List String :=
  b.entries.map Prod.fst

/-- The value of a name. -/
def get? (b : Bindings α) (key : String) : Option α :=
  valueOf? key b.entries

/-- The name has a value. -/
def contains (b : Bindings α) (key : String) : Bool :=
  (b.get? key).isSome

/-- Writes a name: a present one keeps its place, a new one goes to the end. -/
def insert (b : Bindings α) (key : String) (value : α) : Bindings α where
  entries := putEntry key value b.entries
  nodup := by
    rw [map_fst_putEntry]
    split
    · exact b.nodup
    · rename_i h
      rw [List.nodup_append]
      refine ⟨b.nodup, by simp, ?_⟩
      grind

/-- Writes entries one after another. -/
def insertAll (b : Bindings α) (es : List (String × α)) : Bindings α :=
  es.foldl (fun b e => b.insert e.1 e.2) b

/-- Bindings from entries; a repeated name keeps its first place and its last value. -/
def ofList (es : List (String × α)) : Bindings α :=
  empty.insertAll es

/-- Writes all entries of another set of bindings. -/
def update (b other : Bindings α) : Bindings α :=
  b.insertAll other.entries

/-- The same names with other values. -/
def map (f : α → β) (b : Bindings α) : Bindings β where
  entries := b.entries.map fun e => (e.1, f e.2)
  nodup := by simpa [Function.comp_def] using b.nodup

/-- Takes a name out. -/
def erase (b : Bindings α) (key : String) : Bindings α where
  entries := b.entries.filter fun e => e.1 ≠ key
  nodup := b.nodup.sublist ((List.filter_sublist).map Prod.fst)

/-- No names at all. -/
def isEmpty (b : Bindings α) : Bool :=
  b.entries.isEmpty

@[ext] theorem ext {a b : Bindings α} (h : a.entries = b.entries) : a = b := by
  cases a
  cases b
  simp_all

theorem get?_insert (b : Bindings α) (key k : String) (value : α) :
    (b.insert key value).get? k = if k = key then some value else b.get? k :=
  valueOf?_putEntry key k value b.entries

theorem keys_insert (b : Bindings α) (key : String) (value : α) :
    (b.insert key value).keys = if key ∈ b.keys then b.keys else b.keys ++ [key] :=
  map_fst_putEntry key value b.entries

theorem keys_nodup (b : Bindings α) : b.keys.Nodup :=
  b.nodup

theorem get?_eq_some_iff {b : Bindings α} {k : String} {value : α} :
    b.get? k = some value ↔ (k, value) ∈ b.entries :=
  valueOf?_eq_some_iff b.nodup

theorem mem_keys_iff {b : Bindings α} {k : String} : k ∈ b.keys ↔ ∃ value, b.get? k = some value := by
  simp [keys, get?_eq_some_iff]

theorem get?_eq_none_iff {b : Bindings α} {k : String} : b.get? k = none ↔ k ∉ b.keys := by
  rw [mem_keys_iff, Option.eq_none_iff_forall_ne_some]
  simp

@[simp] theorem get?_empty (k : String) : (empty : Bindings α).get? k = none := rfl

@[simp] theorem insertAll_nil (b : Bindings α) : b.insertAll [] = b := rfl

@[simp] theorem insertAll_cons (b : Bindings α) (e : String × α) (es : List (String × α)) :
    b.insertAll (e :: es) = (b.insert e.1 e.2).insertAll es := rfl

theorem entries_insertAll (b : Bindings α) (es : List (String × α))
    (nodup : ((b.entries ++ es).map Prod.fst).Nodup) :
    (b.insertAll es).entries = b.entries ++ es := by
  induction es generalizing b with
  | nil => simp
  | cons e r ih =>
    have fresh : e.1 ∉ b.entries.map Prod.fst := by
      rw [List.map_append, List.nodup_append] at nodup
      intro member
      exact nodup.2.2 e.1 member e.1 List.mem_cons_self rfl
    have written : (b.insert e.1 e.2).entries = b.entries ++ [e] := putEntry_of_fresh fresh
    rw [insertAll_cons, ih, written, List.append_assoc]
    · rfl
    · rw [written, List.append_assoc]
      exact nodup

theorem entries_ofList {es : List (String × α)} (nodup : (es.map Prod.fst).Nodup) :
    (ofList es).entries = es :=
  entries_insertAll empty es nodup

end Bindings

end Drydock
