import Drydock.Proofs.Context
import Drydock.Schema.Field
import Mathlib

set_option autoImplicit false
set_option relaxedAutoImplicit false

/-!
Records with entries that no field is read from. Main statements: a field reads nothing but what stands
under its two names, so that an entry under another key, or a value that the field reads as it read the
one before, leaves it as it was; the same holds of tables and of lists, value by value.
-/

namespace Drydock

namespace Schema

variable {α β : Type} {es es' front back : Entries} {at_ : Location} {name other : String}
  {names : List String} {key k : Scalar} {a b v w x : Value}

/-- A key that is none of some names. -/
def IsForeign (names : List String) (k : Scalar) : Prop :=
  ∀ n ∈ names, k ≠ .text n

/-- The second value is the first, a record, with one more entry. -/
inductive Gains (foreign : Scalar → Prop) (v w : Value) : Prop
  | entry {front back : Entries} {k : Scalar} {x : Value} (before : entries? v = some (front ++ back))
      (after : entries? w = some (front ++ (k, x) :: back)) (isForeign : foreign k) : Gains foreign v w

/-- The second value is the first, a map, with another value under one of its keys. -/
inductive Under (fits : Scalar → Prop) (Inside : Value → Value → Prop) (v w : Value) : Prop
  | value {front back : Entries} {key : Scalar} {a b : Value}
      (before : entries? v = some (front ++ (key, a) :: back))
      (after : entries? w = some (front ++ (key, b) :: back)) (isKey : fits key) (inside : Inside a b) :
      Under fits Inside v w

/-- The second value is the first, a list, with another item in one place. -/
inductive InItem (Inside : Value → Value → Prop) (v w : Value) : Prop
  | item {front back : List Value} {a b : Value} (before : items? v = some (front ++ a :: back))
      (after : items? w = some (front ++ b :: back)) (inside : Inside a b) : InItem Inside v w

section Lookup

theorem valueAt?_append_cons (apart : k.same key = false) :
    Value.valueAt? key (front ++ (k, x) :: back) = Value.valueAt? key (front ++ back) := by
  induction front with
  | nil => simp [Value.valueAt?, apart]
  | cons e front ih => simp only [List.cons_append, Value.valueAt?, ih]

theorem valueAt?_append (apart : ∀ e ∈ front, e.1.same key = false) (es : Entries) :
    Value.valueAt? key (front ++ es) = Value.valueAt? key es := by
  induction front with
  | nil => rfl
  | cons e front ih =>
    obtain ⟨first, others⟩ := List.forall_mem_cons.mp apart
    rw [List.cons_append, Value.valueAt?, first, ih others]
    rfl

theorem valueAt?_eq_none (apart : ∀ e ∈ es, e.1.same key = false) : Value.valueAt? key es = none := by
  have all := valueAt?_append apart []
  rwa [List.append_nil] at all

/-- What is read of a value that a key may lead to. -/
theorem map_valueAt?_append_cons {f : Value → β} (alike : key.same k = true → f a = f b) :
    (Value.valueAt? k (front ++ (key, a) :: back)).map f =
      (Value.valueAt? k (front ++ (key, b) :: back)).map f := by
  induction front with
  | nil =>
    simp only [List.nil_append, Value.valueAt?]
    split
    · exact congrArg some (alike ‹_›)
    · rfl
  | cons e front ih =>
    simp only [List.cons_append, Value.valueAt?]
    split
    · rfl
    · exact ih

theorem eq_of_same_text (same : k.same (.text name) = true) : k = .text name := by
  by_contra apart
  rw [Scalar.same_text apart] at same
  cases same

theorem field?_putField (name other : String) (v : Value) (es : Entries) :
    Value.field? name (Value.putField (.text other) v es) =
      if other = name then some v else Value.field? name es := by
  have own (s : String) : (Scalar.text s).same (.text name) = decide (s = name) := rfl
  induction es with
  | nil => simp [Value.putField, Value.field?, Value.valueAt?, own]
  | cons e es ih =>
    unfold Value.field? at ih ⊢
    -- An equal key keeps its place, and the entries before it are passed over.
    by_cases here : e.1.same (.text other) = true
    · have key := eq_of_same_text here
      rw [Value.putField, if_pos here, Value.valueAt?, Value.valueAt?, key, own]
      by_cases asked : other = name <;> simp [asked]
    · simp only [Value.putField, if_neg here, Value.valueAt?, ih]
      by_cases found : e.1.same (.text name) = true
      · have different : other ≠ name := by
          rintro rfl
          exact here found
        simp [found, different]
      · simp [found]

theorem fst_of_mem_putField {e : Scalar × Value} (member : e ∈ Value.putField k x es) :
    e.1 = k ∨ ∃ d ∈ es, e.1 = d.1 := by
  induction es with
  | nil =>
    obtain rfl := List.mem_singleton.mp member
    exact .inl rfl
  | cons d es ih =>
    rw [Value.putField] at member
    split at member
    · rcases List.mem_cons.mp member with rfl | later
      · exact .inr ⟨d, List.mem_cons_self, rfl⟩
      · exact .inr ⟨e, List.mem_cons_of_mem d later, rfl⟩
    · rcases List.mem_cons.mp member with rfl | later
      · exact .inr ⟨e, List.mem_cons_self, rfl⟩
      · exact (ih later).imp_right fun ⟨c, old, key⟩ => ⟨c, List.mem_cons_of_mem d old, key⟩

/-- Entries under other keys can be taken out. -/
theorem field?_filter {keeps : Scalar × Value → Bool} (kept : ∀ v, keeps (.text name, v) = true)
    (es : Entries) : Value.field? name (es.filter keeps) = Value.field? name es := by
  unfold Value.field?
  induction es with
  | nil => rfl
  | cons e es ih =>
    by_cases stays : keeps e = true
    · rw [List.filter_cons_of_pos stays, Value.valueAt?, Value.valueAt?, ih]
    · have other : ¬e.1.same (.text name) = true := by
        intro same
        obtain ⟨key, value⟩ := e
        obtain rfl := eq_of_same_text same
        exact stays (kept value)
      rw [List.filter_cons_of_neg stays, Value.valueAt?, if_neg other, ih]

end Lookup

section Reading

/-- Two records that have the same values under some names. -/
def SameFields (names : List String) (es es' : Entries) : Prop :=
  ∀ n ∈ names, Value.field? n es = Value.field? n es'

theorem Gains.exists_sameFields (gains : Gains (IsForeign names) v w) :
    ∃ es es', entries? v = some es ∧ entries? w = some es' ∧ SameFields names es es' := by
  obtain ⟨before, after, foreign⟩ := gains
  refine ⟨_, _, before, after, fun n member => ?_⟩
  exact (valueAt?_append_cons (Scalar.same_text (foreign n member))).symm

/-- Two records that differ in the value of one field at most. -/
structure DifferUnder (name : String) (Inside : Value → Value → Prop) (es es' : Entries) : Prop where
  others : ∀ k, (Scalar.text name).same k = false → Value.valueAt? k es = Value.valueAt? k es'
  reads : ∀ {β : Type} (f : Value → β), (∀ a b, Inside a b → f a = f b) →
    (Value.field? name es).map f = (Value.field? name es').map f

theorem Under.exists_differUnder {Inside : Value → Value → Prop}
    (under : Under (· = .text name) Inside v w) :
    ∃ es es', entries? v = some es ∧ entries? w = some es' ∧ DifferUnder name Inside es es' := by
  obtain @⟨front, back, key, a, b, before, after, rfl, inside⟩ := under
  refine ⟨_, _, before, after, fun k other => ?_, fun f alike => ?_⟩
  · have apart : (Scalar.text name).same k = true → id a = id b := fun same =>
      absurd (same.symm.trans other) (by decide)
    simpa using map_valueAt?_append_cons apart
  · exact map_valueAt?_append_cons fun _ => alike _ _ inside

theorem DifferUnder.sameFields {Inside : Value → Value → Prop} (differ : DifferUnder name Inside es es')
    (absent : name ∉ names) : SameFields names es es' := by
  intro n member
  have other : Scalar.text name ≠ .text n := by
    intro same
    obtain rfl := Scalar.text.inj same
    exact absent member
  exact differ.others _ (Scalar.same_text other)

/-- A field is what is read under its own name, or else under the other. -/
theorem fieldOr_eq (absent : α) (read : Location → Value → Checked α) :
    fieldOr es at_ name other absent read =
      (((Value.field? name es).map (read (at_ ++ [name]))).or
        ((Value.field? other es).map (read (at_ ++ [other])))).getD (pure absent) := by
  unfold fieldOr field?
  cases Value.field? name es with
  | some v => rfl
  | none => cases Value.field? other es <;> rfl

theorem fieldOr_congr (same : SameFields names es es') (direct : name ∈ names) (second : other ∈ names)
    (absent : α) (read : Location → Value → Checked α) :
    fieldOr es at_ name other absent read = fieldOr es' at_ name other absent read := by
  rw [fieldOr_eq, fieldOr_eq, same name direct, same other second]

theorem field?_congr (same : SameFields names es es') (direct : name ∈ names) (second : other ∈ names) :
    field? es name other = field? es' name other := by
  rw [field?, field?, same name direct, same other second]

theorem DifferUnder.fieldOr_eq {Inside : Value → Value → Prop} (differ : DifferUnder name Inside es es')
    (absent : α) {read : Location → Value → Checked α}
    (alike : ∀ a b, Inside a b → read (at_ ++ [name]) a = read (at_ ++ [name]) b) :
    fieldOr es at_ name name absent read = fieldOr es' at_ name name absent read := by
  rw [Schema.fieldOr_eq, Schema.fieldOr_eq, differ.reads _ alike]

theorem ne_null_of_entries? (found : entries? v = some es) : v ≠ .null := by
  rintro rfl
  cases found

theorem text?_of_entries? (found : entries? v = some es) : text? v = none := by
  cases v with
  | scalar s => cases found
  | list | map | set | pair | labelled => rfl

theorem Gains.ne_null {foreign : Scalar → Prop} (gains : Gains foreign v w) : v ≠ .null ∧ w ≠ .null := by
  obtain ⟨before, after, -⟩ := gains
  exact ⟨ne_null_of_entries? before, ne_null_of_entries? after⟩

theorem InItem.ne_null {Inside : Value → Value → Prop} (item : InItem Inside v w) :
    v ≠ .null ∧ w ≠ .null := by
  obtain ⟨before, after, -⟩ := item
  constructor
  · rintro rfl
    cases before
  · rintro rfl
    cases after

theorem record_congr [Inhabited α] {read : Entries → Checked α} (before : entries? v = some es)
    (after : entries? w = some es') (alike : read es = read es') :
    record at_ read v = record at_ read w := by
  simp only [record, before, after, alike]

theorem optional_congr {read : Location → Value → Checked α} (before : v ≠ .null) (after : w ≠ .null)
    (alike : read at_ v = read at_ w) : optional read at_ v = optional read at_ w := by
  have present (u : Value) (some : u ≠ .null) : optional read at_ u = Option.some <$> read at_ u := by
    unfold optional
    split
    · exact absurd rfl some
    · rfl
  rw [present v before, present w after, alike]

theorem orNull_congr {read : Location → Value → Checked α} {absent : α} (before : v ≠ .null)
    (after : w ≠ .null) (alike : read at_ v = read at_ w) :
    orNull absent read at_ v = orNull absent read at_ w := by
  have present (u : Value) (some : u ≠ .null) : orNull absent read at_ u = read at_ u := by
    unfold orNull
    split
    · exact absurd rfl some
    · rfl
  rw [present v before, present w after, alike]

/-- A field that may be absent, and that reads records, does not see what its reader does not see. -/
theorem DifferUnder.fieldOr_optional {foreign : Scalar → Prop}
    (differ : DifferUnder name (Gains foreign) es es') (at_ : Location)
    (read : Location → Value → Checked α)
    (alike : ∀ a b, Gains foreign a b → ∀ at_, read at_ a = read at_ b) :
    fieldOr es at_ name name none (optional read) = fieldOr es' at_ name name none (optional read) :=
  differ.fieldOr_eq none fun a b gains =>
    optional_congr gains.ne_null.1 gains.ne_null.2 (alike a b gains _)

theorem all_append_cons {γ : Type} {read : γ → Checked β} {c d : γ} (alike : read c = read d)
    (front back : List γ) :
    Checked.all read (front ++ c :: back) = Checked.all read (front ++ d :: back) := by
  induction front with
  | nil => rw [List.nil_append, List.nil_append, Checked.all, Checked.all, alike]
  | cons e front ih => rw [List.cons_append, List.cons_append, Checked.all, Checked.all, ih]

theorem itemsFrom_append_cons {read : Location → Value → Checked α}
    (alike : ∀ at_, read at_ a = read at_ b) (i : Nat) (front back : List Value) :
    itemsFrom at_ read i (front ++ a :: back) = itemsFrom at_ read i (front ++ b :: back) := by
  induction front generalizing i with
  | nil => rw [List.nil_append, List.nil_append, itemsFrom, itemsFrom, alike]
  | cons v front ih => rw [List.cons_append, List.cons_append, itemsFrom, itemsFrom, ih]

theorem table_of_under {fits : Scalar → Prop} {Inside : Value → Value → Prop}
    {read : String → Location → Value → Checked α}
    (alike : ∀ a b, Inside a b → ∀ name at_, read name at_ a = read name at_ b)
    (under : Under fits Inside v w) : table at_ read v = table at_ read w := by
  obtain ⟨before, after, -, inside⟩ := under
  simp only [table, before, after]
  rw [all_append_cons]
  simp only [alike _ _ inside]

theorem list_of_inItem {Inside : Value → Value → Prop} {read : Location → Value → Checked α}
    (alike : ∀ a b, Inside a b → ∀ at_, read at_ a = read at_ b) (item : InItem Inside v w) :
    list at_ read v = list at_ read w := by
  obtain ⟨before, after, inside⟩ := item
  simp only [list, before, after]
  exact itemsFrom_append_cons (alike _ _ inside) 0 _ _

end Reading

end Schema

end Drydock
