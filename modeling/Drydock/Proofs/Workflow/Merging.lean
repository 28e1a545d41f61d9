import Drydock.Action.Metadata
import Drydock.Proofs.Schema.Merging
import Drydock.Proofs.Workflow.Unknown
import Mathlib

set_option autoImplicit false
set_option relaxedAutoImplicit false

/-!
The maps of texts in workflows and in descriptions of actions, beside the mappings that they are read
from. Main statement: each map is merged from the entries of its mapping by their keys as texts, and so
has an entry for each key exactly if no two keys are taken as the same text.
-/

namespace Drydock

open Schema

/-- The map is that of a field: empty where the field is missing or absent, else merged from the entries
of the field by their keys as texts. -/
inductive Schema.TextsOf (es : Entries) (name other : String) (m : Bindings String) : Prop
  | missing (unknown : field? es name other = none) (empty : m = ∅)
  | absent {found : String} (known : field? es name other = some (found, .null)) (empty : m = ∅)
  | merged {found : String} {v : Value} {fields : Entries}
      (known : field? es name other = some (found, v)) (mapping : entries? v = some fields)
      (merges : Merges (fields.map fun e => (e.1.alone, e.2.asWritten)) m)

/-- The maps of a step are those of its fields. -/
inductive Step.Collects (v : Value) (s : Step) : Prop
  | record {es : Entries} (record : entries? v = some es) (inputs : TextsOf es "with" "with_" s.inputs)
      (env : TextsOf es "env" "env" s.env)

/-- The steps are those of a field, item by item. -/
inductive Schema.StepsOf (es : Entries) (steps : List Step) : Prop
  | missing (unknown : field? es "steps" "steps" = none) (empty : steps = [])
  | absent {found : String} (known : field? es "steps" "steps" = some (found, .null)) (empty : steps = [])
  | items {found : String} {v : Value} {items : List Value}
      (known : field? es "steps" "steps" = some (found, v)) (list : items? v = some items)
      (collects : List.Forall₂ Step.Collects items steps)

/-- The map of a container is that of its field; an image alone has none. -/
inductive Container.Collects (v : Value) (c : Container) : Prop
  | image (text : text? v = some c.image) (empty : c.env = ∅)
  | record {es : Entries} (record : entries? v = some es) (env : TextsOf es "env" "env" c.env)

/-- The maps of a job are those of its fields, of its steps and of its container. -/
inductive Job.Collects (v : Value) (j : Job) : Prop
  | record {es : Entries} (record : entries? v = some es) (env : TextsOf es "env" "env" j.env)
      (outputs : TextsOf es "outputs" "outputs" j.outputs) (steps : StepsOf es j.steps)
      (container : ∀ c ∈ j.container, ∃ found v,
        field? es "container" "container" = some (found, v) ∧ c.Collects v)

/-- The maps of a workflow are those of its fields, and those of its jobs those of jobs in the document. -/
inductive Workflow.Collects (v : Value) (w : Workflow) : Prop
  | blank (absent : v = .null) (env : w.env = ∅) (jobs : w.jobs = ∅)
  | record {es : Entries} (record : entries? v = some es) (env : TextsOf es "env" "env" w.env)
      (jobs : ∀ e ∈ w.jobs.entries, ∃ found table fields,
        field? es "jobs" "jobs" = some (found, table) ∧ entries? table = some fields ∧
          ∃ d ∈ fields, scalarText? d.1 = some e.1 ∧ e.2.Collects d.2)

/-- The description of an output: a text of its own, or none. -/
inductive Schema.Describes (v : Value) (description : String) : Prop
  | absent (null : v = .null) (empty : description = "")
  | missing {es : Entries} (record : entries? v = some es)
      (unknown : field? es "description" "description" = none) (empty : description = "")
  | text {es : Entries} {found : String} {u : Value} (record : entries? v = some es)
      (known : field? es "description" "description" = some (found, u))
      (text : text? u = some description)

/-- The map is that of the field of outputs, merged by the texts that the keys are. -/
inductive Schema.OutputsOf (es : Entries) (m : Bindings String) : Prop
  | missing (unknown : field? es "outputs" "outputs" = none) (empty : m = ∅)
  | absent {found : String} (known : field? es "outputs" "outputs" = some (found, .null)) (empty : m = ∅)
  | merged {found : String} {v : Value} {fields : Entries} {outputs : List (String × String)}
      (known : field? es "outputs" "outputs" = some (found, v)) (mapping : entries? v = some fields)
      (describes : List.Forall₂ (fun e o => scalarText? e.1 = some o.1 ∧ Describes e.2 o.2) fields outputs)
      (merges : Merges outputs m)

/-- The maps of an action's description of itself are those of its fields and of its steps. -/
inductive ActionMetadata.Collects (v : Value) (a : ActionMetadata) : Prop
  | record {es : Entries} (record : entries? v = some es) (outputs : OutputsOf es a.outputs)
      (runs : (field? es "runs" "runs" = none ∧ a.runs = default) ∨ ∃ found u runs,
        field? es "runs" "runs" = some (found, u) ∧ entries? u = some runs ∧
          TextsOf runs "env" "env" a.runs.env ∧ StepsOf runs a.runs.steps)

section Decoding

variable {at_ : Location} {v : Value} {es : Entries}

theorem textsOf_of_fieldOr {name other : String} {m : Bindings String}
    (made : fieldOr es at_ name other ∅ texts = pure m) : TextsOf es name other m := by
  rcases fieldOr_eq_pure made with ⟨unknown, empty⟩ | ⟨found, v, at', known, read⟩
  · exact .missing unknown empty
  · rcases texts_eq_pure read with ⟨rfl, empty⟩ | ⟨fields, mapping, merges⟩
    · exact .absent known empty
    · exact .merged known mapping merges

theorem Step.collects_of_decode {s : Step} (made : decode at_ v = pure s) : s.Collects v := by
  obtain ⟨es, record, read⟩ := record_eq_pure made
  simp only [Checked.bind_eq_pure_iff, Checked.pure_inj] at read
  obtain ⟨id, -, name, -, condition, -, run, -, uses, -, inputs, withs, env, envs, rfl⟩ := read
  exact .record record (textsOf_of_fieldOr withs) (textsOf_of_fieldOr envs)

theorem collects_of_list {steps : List Step} (made : list at_ Step.decode v = pure steps) :
    ∃ items, items? v = some items ∧ List.Forall₂ Step.Collects items steps := by
  obtain ⟨items, known, each⟩ := list_eq_pure made
  exact ⟨items, known, each.imp fun _ _ ⟨_, read⟩ => Step.collects_of_decode read⟩

theorem Container.collects_of_decode {c : Container} (made : decode at_ v = pure c) : c.Collects v := by
  unfold decode at made
  split at made
  · rename_i image known
    obtain rfl := Checked.pure_inj.mp made
    exact .image known rfl
  · obtain ⟨es, record, read⟩ := record_eq_pure (Checked.collapse_eq_pure_iff.mp made)
    split at read <;>
    · simp only [Checked.bind_eq_pure_iff, Checked.pure_inj] at read
      obtain ⟨image, -, env, envs, rfl⟩ := read
      exact .record record (textsOf_of_fieldOr envs)

theorem Job.collects_of_decode {key : String} {j : Job} (made : decode key at_ v = pure j) :
    j.Collects v := by
  obtain ⟨es, record, read⟩ := record_eq_pure made
  simp only [Checked.bind_eq_pure_iff, Checked.pure_inj] at read
  obtain ⟨name, -, runsOn, -, needs, -, condition, -, env, envs, steps, stepsRead, strategy, -, outputs,
    outputsRead, container, containerRead, rfl⟩ := read
  refine .record record (textsOf_of_fieldOr envs) (textsOf_of_fieldOr outputsRead) ?_ ?_
  · rcases fieldOr_eq_pure stepsRead with ⟨unknown, empty⟩ | ⟨found, v, at', known, read⟩
    · exact .missing unknown empty
    · rcases orNull_eq_pure read with ⟨rfl, empty⟩ | ⟨-, read⟩
      · exact .absent known empty
      · obtain ⟨items, list, collects⟩ := collects_of_list read
        exact .items known list collects
  · intro c some
    rcases fieldOr_eq_pure containerRead with ⟨-, rfl⟩ | ⟨found, v, at', known, read⟩
    · cases some
    · exact ⟨found, v, known, Container.collects_of_decode (optional_eq_pure read c some)⟩

/-- Moving the key that counts as true does not touch the other fields. -/
theorem fieldOr_restoreOn_of_ne {α : Type} {name : String} (other : name ≠ "on") (absent : α)
    (read : Location → Value → Checked α) :
    fieldOr (restoreOn es) at_ name name absent read = fieldOr es at_ name name absent read := by
  rw [fieldOr_eq, fieldOr_eq, field?_restoreOn, if_neg other]

theorem Workflow.collects_of_decode {w : Workflow} (made : decode v = .ok w) : w.Collects v := by
  cases record : entries? v with
  | none =>
    unfold decode at made
    split at made
    · obtain rfl : (⟨"", .null, ∅, ∅⟩ : Workflow) = w := Except.ok.inj made
      exact .blank rfl rfl rfl
    · rename_i known
      cases record.symm.trans known
    · cases made
  | some es =>
    rw [decode_of_entries? record, mapError_eq_ok, Checked.toExcept_eq_ok_iff] at made
    simp only [read, Checked.bind_eq_pure_iff, Checked.pure_inj] at made
    obtain ⟨name, -, on, -, env, envs, jobs, jobsRead, rfl⟩ := made
    rw [fieldOr_restoreOn_of_ne (by decide)] at envs jobsRead
    refine .record record (textsOf_of_fieldOr envs) fun e member => ?_
    rcases fieldOr_eq_pure jobsRead with ⟨-, rfl⟩ | ⟨found, table, at', known, read⟩
    · cases member
    · obtain ⟨fields, read, mapping, merges, each⟩ := table_eq_pure read
      obtain ⟨d, inFields, key, at', made⟩ :=
        exists_mem_of_forall₂ each.flip (merges.mem_of_mem_entries member)
      exact ⟨found, table, fields, known, mapping, d, inFields, key, Job.collects_of_decode made⟩

theorem describes_of_decodeOutput {description : String} (made : decodeOutput at_ v = pure description) :
    Describes v description := by
  obtain ⟨es, record, read⟩ := record_eq_pure made
  rcases fieldOr_eq_pure read with ⟨unknown, empty⟩ | ⟨found, u, at', known, text⟩
  · exact .missing record unknown empty
  · exact .text record known (Checked.ofOption_eq_pure_iff.mp text)

theorem outputsOf_of_fieldOr {m : Bindings String}
    (made : fieldOr es at_ "outputs" "outputs" ∅ (declarations decodeOutput) = pure m) :
    OutputsOf es m := by
  rcases fieldOr_eq_pure made with ⟨unknown, empty⟩ | ⟨found, v, at', known, read⟩
  · exact .missing unknown empty
  · rcases orNull_eq_pure read with ⟨rfl, empty⟩ | ⟨-, read⟩
    · exact .absent known empty
    · obtain ⟨fields, outputs, mapping, merges, each⟩ := table_eq_pure read
      refine .merged known mapping (each.imp ?_) merges
      rintro e o ⟨key, at', made⟩
      refine ⟨key, ?_⟩
      split at made
      · rename_i absent
        exact .absent absent (congrArg Checked.value made).symm
      · exact describes_of_decodeOutput made

theorem ActionMetadata.collects_of_decode {a : ActionMetadata} (made : decode v = .ok a) :
    a.Collects v := by
  unfold decode at made
  split at made
  · rename_i es record
    rw [mapError_eq_ok, Checked.toExcept_eq_ok_iff] at made
    simp only [read, Checked.bind_eq_pure_iff, Checked.pure_inj] at made
    obtain ⟨name, -, description, -, inputs, -, outputs, outputsRead, runs, runsRead, rfl⟩ := made
    refine .record record (outputsOf_of_fieldOr outputsRead) ?_
    rcases fieldOr_eq_pure runsRead with missing | ⟨found, u, at', known, read⟩
    · exact .inl missing
    · obtain ⟨es, mapping, read⟩ := record_eq_pure read
      simp only [Checked.bind_eq_pure_iff, Checked.pure_inj] at read
      obtain ⟨using_, -, image, -, main, -, steps, stepsRead, env, envs, rfl⟩ := read
      refine .inr ⟨found, u, es, known, mapping, textsOf_of_fieldOr envs, ?_⟩
      rcases fieldOr_eq_pure stepsRead with ⟨unknown, empty⟩ | ⟨found, v, at', known, read⟩
      · exact .missing unknown empty
      · obtain ⟨items, list, collects⟩ := collects_of_list read
        exact .items known list collects
  · cases made

end Decoding

/-- Texts that are different keys are different names. -/
theorem Schema.nodup_names {es : Entries} (texts : ∀ e ∈ es, ∃ s, e.1 = .text s)
    (apart : es.Pairwise fun d e => d.1.same e.1 = false) :
    ((es.map fun e => (e.1.alone, e.2.asWritten)).map Prod.fst).Nodup := by
  rw [List.map_map, List.Nodup, List.pairwise_map]
  refine apart.imp_of_mem fun {d e} first second differ same => ?_
  obtain ⟨s, left⟩ := texts d first
  obtain ⟨t, right⟩ := texts e second
  have alike : s = t := by simpa [left, right, Scalar.alone] using same
  simp [left, right, alike, Scalar.same, Scalar.number?] at differ

/-- The maps of a workflow, and of an action's description of itself, are merged by names from the entries
that stand in the document. All entries of a mapping are in its map exactly if the names differ, which
different keys do where all are texts. -/
theorem Workflow.decode_collects (v : Value) :
    (∀ w, decode v = .ok w → w.Collects v) ∧
    (∀ a, ActionMetadata.decode v = .ok a → a.Collects v) ∧
    (∀ (es : List (String × String)) m, Merges es m →
      (m.entries.length = es.length ↔ (es.map Prod.fst).Nodup) ∧
      ((es.map Prod.fst).Nodup → ∀ e ∈ es, m.get? e.1 = some e.2)) ∧
    (∀ es : Entries, (∀ e ∈ es, ∃ s, e.1 = .text s) → es.Pairwise (fun d e => d.1.same e.1 = false) →
      ((es.map fun e => (e.1.alone, e.2.asWritten)).map Prod.fst).Nodup) :=
  ⟨fun _ => collects_of_decode, fun _ => ActionMetadata.collects_of_decode,
    fun _ _ merges => ⟨merges.length_entries_eq_iff, fun nodup _ => merges.get?_of_nodup nodup⟩,
    fun _ => nodup_names⟩

theorem Workflow.decode_collects_settings :
    let settings : Entries := [(.text "A", .text "x"), (.text "B", .bool true)]
    let workflow : Value := .map [(.text "env", .map settings)]
    let action : Value := .map [(.text "outputs", .map [(.text "sum",
      .map [(.text "description", .text "a digest")])])]
    let w : Workflow := ⟨"", .null, .ofList [("A", "x"), ("B", "true")], ∅⟩
    let a : ActionMetadata := ⟨"", "", ∅, .ofList [("sum", "a digest")], default⟩
    (decode workflow = .ok w ∧ w.Collects workflow) ∧
    (ActionMetadata.decode action = .ok a ∧ a.Collects action) ∧
    w.env.entries.length = 2 ∧ w.env.get? "B" = some "true" := by
  intro settings workflow action w a
  obtain ⟨workflows, -, merged, names⟩ := decode_collects workflow
  obtain ⟨-, actions, -, -⟩ := decode_collects action
  have first : decode workflow = .ok w := rfl
  have second : ActionMetadata.decode action = .ok a := rfl
  have nodup := names settings (by simp [settings]) (by simp [settings, Scalar.same, Scalar.number?])
  obtain ⟨whole, each⟩ := merged (settings.map fun e => (e.1.alone, e.2.asWritten)) w.env (.ofList _)
  exact ⟨⟨first, workflows _ first⟩, ⟨second, actions _ second⟩, whole.mpr nodup,
    each nodup ("B", "true") (by simp [settings, Scalar.alone, Value.asWritten])⟩

/-- An integer and a text that spells it are different keys of one name. -/
theorem Workflow.decode_overwrites :
    let settings : Entries := [(.int 1, .text "a"), (.text "1", .text "b")]
    settings.Pairwise (fun d e => d.1.same e.1 = false) ∧
      (decode (.map [(.text "env", .map settings)])).toOption.map (·.env.entries) = some [("1", "b")] :=
  ⟨by simp [Scalar.same, Scalar.number?], by decide +kernel⟩

end Drydock
