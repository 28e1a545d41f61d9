import Drydock.Proofs.Bindings
import Drydock.Schema.Field

set_option autoImplicit false
set_option relaxedAutoImplicit false

/-!
Records written out field by field. Main statement: a field of a written record is read back if its
value is, even where a field that holds what its absence stands for has been left out.
-/

namespace Drydock

namespace Bindings

variable {α : Type}

theorem ofList_entries (b : Bindings α) : ofList b.entries = b :=
  ext (entries_ofList b.nodup)

theorem eq_empty_of_isEmpty {b : Bindings α} (none : b.isEmpty = true) : b = ∅ :=
  ext (List.isEmpty_iff.mp none)

end Bindings

namespace Schema

variable {α β : Type}

theorem Checked.pure_bind (a : α) (f : α → Checked β) : pure a >>= f = f a := rfl

/-- A field as it is written, and whether it holds what its absence stands for. -/
structure Field where
  key : String
  value : Value
  isDefault : Bool

/-- A table written out. -/
def writeTable (write : α → Value) (b : Bindings α) : Entries :=
  b.entries.map fun e => (.text e.1, write e.2)

namespace Field

def text (key s : String) : Field :=
  ⟨key, .text s, s == ""⟩

def list (key : String) (write : α → Value) (items : List α) : Field :=
  ⟨key, .list (items.map write), items.isEmpty⟩

def table (key : String) (write : α → Value) (b : Bindings α) : Field :=
  ⟨key, .map (writeTable write b), b.isEmpty⟩

def option (key : String) (write : α → Value) (o : Option α) : Field :=
  ⟨key, o.elim .null write, o.isNone⟩

end Field

def Field.isShown (explicit : Bool) (f : Field) : Bool :=
  explicit || !f.isDefault

/-- A record written out: all its fields, or those alone that differ from what their absence stands
for. -/
def writeRecord (explicit : Bool) (fields : List Field) : Entries :=
  (fields.filter (Field.isShown explicit)).map fun f => (.text f.key, f.value)

section Finding

variable {fields : List Field} {f : Field} {name : String} (explicit : Bool)

theorem writeRecord_cons (f : Field) (r : List Field) :
    writeRecord explicit (f :: r) =
      if f.isShown explicit then (.text f.key, f.value) :: writeRecord explicit r
      else writeRecord explicit r := by
  unfold writeRecord
  by_cases shown : f.isShown explicit = true
  · rw [List.filter_cons_of_pos shown, if_pos shown, List.map_cons]
  · rw [List.filter_cons_of_neg shown, if_neg shown]

omit explicit in
theorem field?_cons (key : String) (v : Value) (r : Entries) :
    Value.field? name ((.text key, v) :: r) = if key = name then some v else Value.field? name r := by
  have same : (Scalar.text key).same (.text name) = decide (key = name) := rfl
  simp only [Value.field?, Value.valueAt?, same, decide_eq_true_eq]

theorem field?_writeRecord_of_notMem (other : name ∉ fields.map Field.key) :
    Value.field? name (writeRecord explicit fields) = none := by
  induction fields with
  | nil => rfl
  | cons f r ih =>
    rw [List.map_cons, List.mem_cons, not_or] at other
    obtain ⟨first, rest⟩ := other
    rw [writeRecord_cons]
    split
    · rw [field?_cons, if_neg (Ne.symm first), ih rest]
    · exact ih rest

theorem field?_writeRecord (nodup : (fields.map Field.key).Nodup) (member : f ∈ fields) :
    Value.field? f.key (writeRecord explicit fields) =
      if f.isShown explicit then some f.value else none := by
  induction fields with
  | nil => cases member
  | cons x r ih =>
    obtain ⟨fresh, rest⟩ := List.nodup_cons.mp nodup
    rw [writeRecord_cons]
    rcases List.mem_cons.mp member with rfl | later
    · have others : Value.field? f.key (writeRecord explicit r) = none :=
        field?_writeRecord_of_notMem explicit fresh
      split
      · rw [field?_cons, if_pos rfl]
      · exact others
    · have found := ih rest later
      have apart : x.key ≠ f.key := fun same => fresh (same ▸ List.mem_map_of_mem later)
      split
      · rw [field?_cons, if_neg apart, found]
      · exact found

end Finding

/-- A field is read back as `a`. -/
structure Recovers (read : Location → Value → Checked α) (absent : α) (f : Field) (a : α) : Prop where
  reads : ∀ at_, read at_ f.value = pure a
  default : f.isDefault = true → a = absent

/-- The keys of fields are these, each once. -/
structure Keyed (fields : List Field) (names : List String) : Prop where
  keys : fields.map Field.key = names
  nodup : names.Nodup

theorem Keyed.nodup_keys {fields : List Field} {names : List String} (keyed : Keyed fields names) :
    (fields.map Field.key).Nodup :=
  keyed.keys ▸ keyed.nodup

/-- A field is read back at its place, if its other name is not the key of another field. -/
theorem Recovers.fieldOr {read : Location → Value → Checked α} {absent a : α} {name : String}
    {v : Value} {isDefault : Bool} (recovers : Recovers read absent ⟨name, v, isDefault⟩ a)
    {fields : List Field} {names : List String} (keyed : Keyed fields names) (i : Nat)
    (here : fields[i]? = some ⟨name, v, isDefault⟩) (other : String)
    (apart : other ∈ names → other = name) (explicit : Bool) (at_ : Location) :
    fieldOr (writeRecord explicit fields) at_ name other absent read = pure a := by
  have found := field?_writeRecord explicit keyed.nodup_keys (List.mem_of_getElem? here)
  by_cases shown : (explicit || !isDefault) = true
  · rw [Field.isShown, if_pos shown] at found
    simp only [Schema.fieldOr, field?, found, recovers.reads]
  · rw [Field.isShown, if_neg shown] at found
    have blank : isDefault = true := by
      simp only [Bool.or_eq_true, not_or, Bool.not_eq_true', Bool.not_eq_false] at shown
      exact shown.2
    have unnamed : Value.field? other (writeRecord explicit fields) = none := by
      by_cases known : other ∈ names
      · rw [apart known, found]
      · exact field?_writeRecord_of_notMem explicit (keyed.keys ▸ known)
    simp only [Schema.fieldOr, field?, found, unnamed, Option.map_none, recovers.default blank]

section Values

theorem recovers_text (key s : String) : Recovers text "" (.text key s) s where
  reads _ := rfl
  default blank := beq_iff_eq.mp blank

theorem recovers_written (key s : String) : Recovers written "" (.text key s) s where
  reads _ := rfl
  default blank := beq_iff_eq.mp blank

theorem texts_written (b : Bindings String) (at_ : Location) :
    texts at_ (.map (writeTable Value.text b)) = pure b := by
  have writable : (writeTable Value.text b).all (fun e => e.1.isWritable && e.2.isWritable) = true := by
    refine List.all_eq_true.mpr fun e member => ?_
    obtain ⟨x, -, rfl⟩ := List.mem_map.mp member
    rfl
  have back : (writeTable Value.text b).map (fun e => (e.1.alone, e.2.asWritten)) = b.entries := by
    rw [writeTable, List.map_map]
    exact List.map_id b.entries
  simp only [texts, entries?, Value.bare, writable, if_true, back, Bindings.ofList_entries]

theorem recovers_texts (key : String) (b : Bindings String) :
    Recovers texts ∅ (.table key Value.text b) b where
  reads := texts_written b
  default blank := Bindings.eq_empty_of_isEmpty blank

theorem itemsFrom_written {write : α → Value} {read : Location → Value → Checked α} {items : List α}
    (reads : ∀ a ∈ items, ∀ at_, read at_ (write a) = pure a) (at_ : Location) (i : Nat) :
    itemsFrom at_ read i (items.map write) = pure items := by
  induction items generalizing i with
  | nil => rfl
  | cons a r ih =>
    obtain ⟨first, rest⟩ := List.forall_mem_cons.mp reads
    rw [List.map_cons, itemsFrom, first, Checked.pure_bind, ih rest, Checked.pure_bind]

theorem list_written {write : α → Value} {read : Location → Value → Checked α} {items : List α}
    (reads : ∀ a ∈ items, ∀ at_, read at_ (write a) = pure a) (at_ : Location) :
    list at_ read (.list (items.map write)) = pure items :=
  itemsFrom_written reads at_ 0

theorem recovers_list {write : α → Value} {read : Location → Value → Checked α} (key : String)
    {items : List α} (reads : ∀ a ∈ items, ∀ at_, read at_ (write a) = pure a) :
    Recovers (orNull [] fun at_ => list at_ read) [] (.list key write items) items where
  reads := list_written reads
  default blank := List.isEmpty_iff.mp blank

theorem recovers_option {write : α → Value} {read : Location → Value → Checked α} (key : String)
    {o : Option α} (some : ∀ a ∈ o, write a ≠ .null)
    (reads : ∀ a ∈ o, ∀ at_, read at_ (write a) = pure a) :
    Recovers (optional read) none (.option key write o) o where
  reads at_ := by
    cases o with
    | none => rfl
    | some a =>
      have value : write a ≠ .null := some a rfl
      have back := reads a rfl at_
      change optional read at_ (write a) = _
      unfold optional
      split
      · exact absurd ‹_› value
      · rw [back, Checked.pure_bind]
  default blank := Option.isNone_iff_eq_none.mp blank

theorem all_written {γ : Type} {write : α → γ} {read : γ → Checked β} {items : List α}
    (recovered : α → β) (reads : ∀ a ∈ items, read (write a) = pure (recovered a)) :
    Checked.all read (items.map write) = pure (items.map recovered) := by
  induction items with
  | nil => rfl
  | cons a r ih =>
    obtain ⟨first, rest⟩ := List.forall_mem_cons.mp reads
    rw [List.map_cons, Checked.all, first, Checked.pure_bind, ih rest, Checked.pure_bind,
      List.map_cons]

/-- A table is read back if its values are, each under its key. -/
theorem recovers_table {write : α → Value} {read : String → Location → Value → Checked β}
    (key : String) {b : Bindings α} (recovered : String → α → β)
    (reads : ∀ e ∈ b.entries, ∀ at_, read e.1 at_ (write e.2) = pure (recovered e.1 e.2)) :
    Recovers (fun at_ => table at_ read) ∅ (.table key write b)
      (.ofList (b.entries.map fun e => (e.1, recovered e.1 e.2))) where
  reads at_ := by
    have keys (k : String) : Schema.key at_ (.text k) = pure k := rfl
    simp only [table, Field.table, entries?, Value.bare, writeTable]
    rw [all_written fun e => (e.1, recovered e.1 e.2), Checked.pure_bind]
    intro e member
    rw [keys, Checked.pure_bind, reads e member, Checked.pure_bind]
  default blank := by
    obtain rfl := Bindings.eq_empty_of_isEmpty blank
    rfl

/-- Values that are kept as they are. -/
theorem recovers_values (key : String) (b : Bindings Value) :
    Recovers (fun at_ => table at_ fun _ _ v => pure v) ∅ (.table key id b) b := by
  have kept : Bindings.ofList (b.entries.map fun e => (e.1, e.2)) = b := by
    rw [List.map_id', Bindings.ofList_entries]
  have whole : Recovers (fun at_ => table at_ fun _ _ v => pure v) ∅ (.table key id b)
      (.ofList (b.entries.map fun e => (e.1, e.2))) :=
    recovers_table key (fun _ v => v) fun _ _ _ => rfl
  rwa [kept] at whole

theorem recovers_integer (key : String) (n : Int) : Recovers integer 0 ⟨key, .int n, n == 0⟩ n where
  reads _ := rfl
  default blank := beq_iff_eq.mp blank

end Values

end Schema

end Drydock
