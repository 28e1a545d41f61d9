import Drydock.Proofs.Schema.Unknown
import Drydock.Workflow.Decode
import Mathlib

set_option autoImplicit false
set_option relaxedAutoImplicit false

/-!
Workflow documents with entries that no field is read from. Main statement: an entry under a foreign key,
added to any record of a document, changes neither the workflow nor the places that do not fit, unless its
key counts as true at the top, where it stands for the key `on`.
-/

namespace Drydock

open Schema

/-- The names of the fields of a workflow. -/
def Workflow.fieldNames : List String :=
  ["name", "on", "env", "jobs"]

def Job.fieldNames : List String :=
  ["name", "runs-on", "runs_on", "needs", "if", "if_", "env", "steps", "strategy", "outputs", "container"]

def Step.fieldNames : List String :=
  ["id", "name", "if", "if_", "run", "uses", "with", "with_", "env"]

def Strategy.fieldNames : List String :=
  ["matrix", "fail-fast", "fail_fast", "max-parallel", "max_parallel"]

def Container.fieldNames : List String :=
  ["image", "env"]

/-- The second document of a job is the first with one more entry, in it, in one of its steps, in its
strategy or in its container, under a key that is foreign there. -/
inductive Job.Gains (v w : Value) : Prop
  | here (gains : Schema.Gains (IsForeign fieldNames) v w)
  | step (under : Under (· = .text "steps") (InItem (Schema.Gains (IsForeign Step.fieldNames))) v w)
  | strategy (under : Under (· = .text "strategy") (Schema.Gains (IsForeign Strategy.fieldNames)) v w)
  | container (under : Under (· = .text "container") (Schema.Gains (IsForeign Container.fieldNames)) v w)

/-- A key that is foreign at the top of a workflow document. -/
def Workflow.IsUnread (k : Scalar) : Prop :=
  IsForeign fieldNames k ∧ k.same (.bool true) = false

/-- The second workflow document is the first with one more entry under a foreign key, at the top or in
one of the jobs. The empty document counts as one without entries. -/
inductive Workflow.Gains (v w : Value) : Prop
  | first {k : Scalar} {x : Value} (before : v = .null) (after : entries? w = some [(k, x)])
      (isUnread : IsUnread k)
  | here (gains : Schema.Gains IsUnread v w)
  | job (under : Under (· = .text "jobs") (Under (fun _ => True) Job.Gains) v w)

section Records

variable {es es' : Entries} {at_ : Location} {v w : Value}

theorem Step.decode_of_gains (gains : Schema.Gains (IsForeign fieldNames) v w) :
    decode at_ v = decode at_ w := by
  obtain ⟨es, es', before, after, same⟩ := gains.exists_sameFields
  refine record_congr before after ?_
  simp (disch := decide) only [fieldOr_congr same]

theorem Strategy.decode_of_gains (gains : Schema.Gains (IsForeign fieldNames) v w) :
    decode at_ v = decode at_ w := by
  obtain ⟨es, es', before, after, same⟩ := gains.exists_sameFields
  refine record_congr before after ?_
  simp (disch := decide) only [fieldOr_congr same]

theorem Container.decode_of_gains (gains : Schema.Gains (IsForeign fieldNames) v w) :
    decode at_ v = decode at_ w := by
  obtain ⟨es, es', before, after, same⟩ := gains.exists_sameFields
  simp only [decode, text?_of_entries? before, text?_of_entries? after]
  refine congrArg (Checked.collapse at_) (record_congr before after ?_)
  simp (disch := decide) only [fieldOr_congr same, field?_congr same]

theorem Job.decode_of_gains (key : String) (gains : Job.Gains v w) :
    decode key at_ v = decode key at_ w := by
  rcases gains with here | step | strategy | container
  · obtain ⟨es, es', before, after, same⟩ := here.exists_sameFields
    refine record_congr before after ?_
    simp (disch := decide) only [fieldOr_congr same]
  -- An entry inside a part of the job is inside one field: the others are the same, and the reader of this
  -- one reads the same of both values.
  · obtain ⟨es, es', before, after, differ⟩ := step.exists_differUnder
    have same : SameFields (fieldNames.erase "steps") es es' := differ.sameFields (by decide)
    have steps : fieldOr es at_ "steps" "steps" [] (orNull [] fun at_ => list at_ Step.decode) =
        fieldOr es' at_ "steps" "steps" [] (orNull [] fun at_ => list at_ Step.decode) := by
      refine differ.fieldOr_eq [] fun a b item => orNull_congr item.ne_null.1 item.ne_null.2 ?_
      exact list_of_inItem (fun _ _ gains _ => Step.decode_of_gains gains) item
    refine record_congr before after ?_
    simp (disch := decide) only [fieldOr_congr same, steps]
  · obtain ⟨es, es', before, after, differ⟩ := strategy.exists_differUnder
    have same : SameFields (fieldNames.erase "strategy") es es' := differ.sameFields (by decide)
    have own := differ.fieldOr_optional at_ Strategy.decode fun _ _ gains _ => Strategy.decode_of_gains gains
    refine record_congr before after ?_
    simp (disch := decide) only [fieldOr_congr same, own]
  · obtain ⟨es, es', before, after, differ⟩ := container.exists_differUnder
    have same : SameFields (fieldNames.erase "container") es es' := differ.sameFields (by decide)
    have own := differ.fieldOr_optional at_ Container.decode fun _ _ gains _ => Container.decode_of_gains gains
    refine record_congr before after ?_
    simp (disch := decide) only [fieldOr_congr same, own]

end Records

section Top

variable {es es' : Entries} {name : String} {k : Scalar} {v w x : Value}

/-- What stands under a key that counts as true is read as `on`. -/
theorem field?_restoreOn (name : String) (es : Entries) :
    Value.field? name (restoreOn es) =
      if name = "on" then (Value.valueAt? (.bool true) es).or (Value.field? "on" es)
      else Value.field? name es := by
  unfold restoreOn
  cases Value.valueAt? (.bool true) es with
  | none =>
    by_cases on : name = "on"
    · simp [on]
    · simp [on]
  | some v =>
    rw [field?_putField, field?_filter fun _ => rfl]
    by_cases on : name = "on"
    · simp [on]
    · simp [on, Ne.symm on]

theorem Workflow.read_congr (same : SameFields fieldNames es es') : read es = read es' := by
  unfold read
  simp (disch := decide) only [fieldOr_congr same]

theorem Workflow.decode_of_entries? (found : entries? v = some es) :
    decode v = (read (restoreOn es)).toExcept.mapError .misfit := by
  have present := ne_null_of_entries? found
  unfold decode
  split
  · exact absurd rfl present
  · rename_i known
    cases found.symm.trans known
    rfl
  · rename_i unknown
    cases found.symm.trans unknown

theorem sameFields_restoreOn (foreign : Workflow.IsUnread k) (front back : Entries) (x : Value) :
    SameFields Workflow.fieldNames (restoreOn (front ++ (k, x) :: back)) (restoreOn (front ++ back)) := by
  have under (n : String) (member : n ∈ Workflow.fieldNames) :
      Value.field? n (front ++ (k, x) :: back) = Value.field? n (front ++ back) :=
    valueAt?_append_cons (Scalar.same_text (foreign.1 n member))
  intro n member
  rw [field?_restoreOn, field?_restoreOn, valueAt?_append_cons foreign.2, under n member,
    under "on" (by decide)]

theorem Workflow.read_restoreOn_of_differUnder
    (differ : DifferUnder "jobs" (Under (fun _ => True) Job.Gains) es es') :
    read (restoreOn es) = read (restoreOn es') := by
  have others : SameFields ["name", "on", "env"] es es' := differ.sameFields (by decide)
  have same : SameFields ["name", "on", "env"] (restoreOn es) (restoreOn es') := by
    intro n member
    rw [field?_restoreOn, field?_restoreOn, differ.others (.bool true) rfl, others n member,
      others "on" (by decide)]
  have jobs : fieldOr (restoreOn es) [] "jobs" "jobs" ∅ (fun at_ => table at_ Job.decode) =
      fieldOr (restoreOn es') [] "jobs" "jobs" ∅ (fun at_ => table at_ Job.decode) := by
    have reads := differ.reads (fun v => table ([] ++ ["jobs"]) Job.decode v) fun a b under =>
      table_of_under (fun _ _ gains key _ => Job.decode_of_gains key gains) under
    have found (es : Entries) : Value.field? "jobs" (restoreOn es) = Value.field? "jobs" es := by
      rw [field?_restoreOn, if_neg (by decide)]
    rw [fieldOr_eq, fieldOr_eq, found, found, reads]
  unfold read
  simp (disch := decide) only [fieldOr_congr same, jobs]

theorem Workflow.decode_congr (before : entries? v = some es) (after : entries? w = some es')
    (same : SameFields fieldNames (restoreOn es) (restoreOn es')) : decode v = decode w := by
  rw [decode_of_entries? before, decode_of_entries? after, read_congr same]

theorem Workflow.decode_of_gains (gains : Workflow.Gains v w) : decode w = decode v := by
  rcases gains with @⟨k, x, rfl, after, foreign⟩ | ⟨before, after, foreign⟩ | under
  -- The empty document has no entries, but is read as a record without any.
  · have same : read (restoreOn [(k, x)]) = read (restoreOn []) :=
      read_congr (sameFields_restoreOn foreign [] [] x)
    rw [decode_of_entries? after, same]
    rfl
  · exact decode_congr after before (sameFields_restoreOn foreign _ _ _)
  · obtain ⟨es, es', before, after, differ⟩ := under.exists_differUnder
    rw [decode_of_entries? before, decode_of_entries? after, read_restoreOn_of_differUnder differ]

theorem Workflow.decode_of_same {front back : Entries} (truth : k.same (.bool true) = true)
    (alone : ∀ e ∈ front ++ back, e.1.same (.bool true) = false) :
    decode (.map (front ++ (k, x) :: back)) =
      decode (.map (Value.putField (.text "on") x (front ++ back))) := by
  have noText (n : String) : k ≠ .text n := by
    rintro rfl
    cases truth
  have found : Value.valueAt? (.bool true) (front ++ (k, x) :: back) = some x := by
    rw [valueAt?_append fun e member => alone e (List.mem_append_left back member), Value.valueAt?,
      if_pos truth]
  have gone : Value.valueAt? (.bool true) (Value.putField (.text "on") x (front ++ back)) = none := by
    refine valueAt?_eq_none fun e member => ?_
    rcases fst_of_mem_putField member with key | ⟨d, old, key⟩
    · rw [key]
      rfl
    · rw [key]
      exact alone d old
  refine decode_congr rfl rfl fun n _ => ?_
  rw [field?_restoreOn, field?_restoreOn, found, gone, field?_putField, field?_putField]
  have passed : Value.field? n (front ++ (k, x) :: back) = Value.field? n (front ++ back) :=
    valueAt?_append_cons (Scalar.same_text (noText n))
  by_cases on : n = "on"
  · simp [on]
  · simp [on, Ne.symm on, passed]

/-- An entry that is added to the records of a document under a foreign key changes neither the workflow
nor the places that do not fit. An entry at the top whose key counts as true is the entry `on`. -/
theorem Workflow.decode_gains (v w : Value) :
    (Gains v w → decode w = decode v) ∧
    (∀ (front back : Entries) (k : Scalar) (x : Value), k.same (.bool true) = true →
      (∀ e ∈ front ++ back, e.1.same (.bool true) = false) →
      decode (.map (front ++ (k, x) :: back)) =
        decode (.map (Value.putField (.text "on") x (front ++ back)))) :=
  ⟨decode_of_gains, fun _ _ _ _ truth alone => decode_of_same truth alone⟩

end Top

/-- A document with a job that has one step. -/
def Value.stepping (step : Entries) : Value :=
  .map [(.text "jobs", .map [(.text "build", .map [(.text "steps", .list [.map step])])])]

theorem Workflow.decode_gains_stepping :
    Gains (.stepping [(.text "run", .text "make")])
        (.stepping [(.text "run", .text "make"), (.bool true, .list [.null])]) ∧
      decode (.stepping [(.text "run", .text "make"), (.bool true, .list [.null])]) =
        decode (.stepping [(.text "run", .text "make")]) ∧
      (Scalar.int 1).same (.bool true) = true ∧
      decode (.map [(.text "name", .text "CI"), (.int 1, .text "push")]) =
        decode (.map [(.text "name", .text "CI"), (.text "on", .text "push")]) := by
  let run : Scalar × Value := (.text "run", .text "make")
  have foreign : IsForeign Step.fieldNames (.bool true) := fun _ _ => by simp
  have inStep : Schema.Gains (IsForeign Step.fieldNames) (.map [run])
      (.map [run, (.bool true, .list [.null])]) :=
    @Schema.Gains.entry _ _ _ [run] [] _ _ rfl rfl foreign
  have inList : InItem (Schema.Gains (IsForeign Step.fieldNames)) (.list [.map [run]])
      (.list [.map [run, (.bool true, .list [.null])]]) :=
    @InItem.item _ _ _ [] [] _ _ rfl rfl inStep
  have inJob : Job.Gains (.map [(.text "steps", .list [.map [run]])])
      (.map [(.text "steps", .list [.map [run, (.bool true, .list [.null])]])]) :=
    .step (@Under.value _ _ _ _ [] [] _ _ _ rfl rfl rfl inList)
  have gains : Gains (.stepping [run]) (.stepping [run, (.bool true, .list [.null])]) :=
    .job (@Under.value _ _ _ _ [] [] _ _ _ rfl rfl rfl
      (@Under.value _ _ _ _ [] [] (.text "build") _ _ rfl rfl trivial inJob))
  have others : ∀ e ∈ [(Scalar.text "name", Value.text "CI")] ++ [], e.1.same (.bool true) = false := by
    simp only [List.append_nil, List.forall_mem_singleton]
    rfl
  obtain ⟨kept, taken⟩ := decode_gains (.stepping [run]) (.stepping [run, (.bool true, .list [.null])])
  exact ⟨gains, kept gains, rfl, taken _ _ _ _ rfl others⟩

/-- An entry under the number one is no entry `on`, and changes what `on` is. -/
theorem Workflow.decode_one_changes :
    IsForeign fieldNames (.int 1) ∧ Scalar.int 1 ≠ .bool true ∧
      decode (.map [(.text "on", .text "push"), (.int 1, .text "x")]) ≠
        decode (.map [(.text "on", .text "push")]) := by
  refine ⟨fun _ _ => by simp, by simp, fun same => ?_⟩
  have written : (decode (.map [(.text "on", .text "push"), (.int 1, .text "x")])).toOption.map (·.on) =
      some (.text "x") := rfl
  have before : (decode (.map [(.text "on", .text "push")])).toOption.map (·.on) =
      some (.text "push") := rfl
  rw [same, before] at written
  simp at written

end Drydock
