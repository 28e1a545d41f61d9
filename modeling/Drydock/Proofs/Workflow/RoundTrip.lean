import Drydock.Proofs.Schema.Writing
import Drydock.Workflow.Decode

set_option autoImplicit false
set_option relaxedAutoImplicit false

/-!
Workflows written out as documents. Main statement: the document of a workflow, with all its fields
or without those that hold what their absence stands for, is decoded as the same workflow, if each job
has a name or an empty key.
-/

namespace Drydock

open Schema

/-- A single label as a text, several as a list. -/
def Labels.document : Labels → Value
  | one label => .text label
  | many labels => .list (labels.map Value.text)

def Step.fields (s : Step) : List Field :=
  [.text "id" s.id, .text "name" s.name, .text "if" s.condition, .text "run" s.run,
    .text "uses" s.uses, .table "with" Value.text s.inputs, .table "env" Value.text s.env]

def Step.document (explicit : Bool) (s : Step) : Value :=
  .map (writeRecord explicit s.fields)

def Container.fields (c : Container) : List Field :=
  [⟨"image", .text c.image, false⟩, .table "env" Value.text c.env]

/-- A container without variables of its own may be written as its image alone. -/
def Container.document (explicit : Bool) (c : Container) : Value :=
  if !explicit && c.env.isEmpty then .text c.image else .map (writeRecord explicit c.fields)

def Strategy.fields (s : Strategy) : List Field :=
  [.table "matrix" id s.matrix, .option "fail-fast" Value.bool s.failFast,
    ⟨"max-parallel", .int s.maxParallel, s.maxParallel == 0⟩]

def Strategy.document (explicit : Bool) (s : Strategy) : Value :=
  .map (writeRecord explicit s.fields)

def Job.fields (explicit : Bool) (j : Job) : List Field :=
  [.text "name" j.name, ⟨"runs-on", j.runsOn.document, j.runsOn == .none⟩,
    ⟨"needs", j.needs.document, j.needs == .none⟩, .text "if" j.condition,
    .table "env" Value.text j.env, .list "steps" (Step.document explicit) j.steps,
    .option "strategy" (Strategy.document explicit) j.strategy,
    .table "outputs" Value.text j.outputs, .option "container" (Container.document explicit) j.container]

def Job.document (explicit : Bool) (j : Job) : Value :=
  .map (writeRecord explicit (j.fields explicit))

def Value.isNull : Value → Bool
  | .null => true
  | _ => false

def Workflow.fields (explicit : Bool) (w : Workflow) : List Field :=
  [.text "name" w.name, ⟨"on", w.on, w.on.isNull⟩, .table "env" Value.text w.env,
    .table "jobs" (Job.document explicit) w.jobs]

/-- A workflow written out under the keys of the format, with all fields or without those that hold
what their absence stands for. -/
def Workflow.document (explicit : Bool) (w : Workflow) : Value :=
  .map (writeRecord explicit (w.fields explicit))

/-- A job that has its key for a name if it has no other. -/
def Job.named (key : String) (j : Job) : Job :=
  { j with name := if j.name = "" then key else j.name }

def Workflow.named (w : Workflow) : Workflow :=
  { w with jobs := .ofList (w.jobs.entries.map fun e => (e.1, e.2.named e.1)) }

section Parts

variable (explicit : Bool)

theorem Labels.decode_document (l : Labels) (at_ : Location) :
    Labels.decode at_ l.document = pure l := by
  cases l with
  | one label => rfl
  | many labels =>
    have written : ∀ s ∈ labels, ∀ at_, Schema.text at_ (Value.text s) = pure s := fun _ _ _ => rfl
    have read : textOrTexts at_ (.list (labels.map Value.text)) = pure (.inr labels) := by
      change (Schema.list at_ Schema.text (.list (labels.map Value.text)) >>= _) = _
      rw [list_written written, Checked.pure_bind]
    simp only [Labels.decode, Labels.document, read]
    rfl

theorem Step.decode_document (s : Step) (at_ : Location) :
    Step.decode at_ (s.document explicit) = pure s := by
  have keyed : Keyed s.fields ["id", "name", "if", "run", "uses", "with", "env"] :=
    ⟨rfl, by decide⟩
  have id := (recovers_written "id" s.id).fieldOr keyed 0 rfl "id" (by decide)
  have name := (recovers_written "name" s.name).fieldOr keyed 1 rfl "name" (by decide)
  have condition := (recovers_written "if" s.condition).fieldOr keyed 2 rfl "if_" (by decide)
  have run := (recovers_written "run" s.run).fieldOr keyed 3 rfl "run" (by decide)
  have uses := (recovers_written "uses" s.uses).fieldOr keyed 4 rfl "uses" (by decide)
  have inputs := (recovers_texts "with" s.inputs).fieldOr keyed 5 rfl "with_" (by decide)
  have env := (recovers_texts "env" s.env).fieldOr keyed 6 rfl "env" (by decide)
  simp only [Step.decode, Step.document, record, entries?, Value.bare, id, name, condition, run, uses,
    inputs, env, Checked.pure_bind]

theorem Strategy.decode_document (s : Strategy) (at_ : Location) :
    Strategy.decode at_ (s.document explicit) = pure s := by
  have keyed : Keyed s.fields ["matrix", "fail-fast", "max-parallel"] := ⟨rfl, by decide⟩
  have matrix := (recovers_values "matrix" s.matrix).fieldOr keyed 0 rfl "matrix" (by decide)
  have bools : ∀ b ∈ s.failFast, ∀ at_, Schema.bool at_ (.bool b) = pure b := fun _ _ _ => rfl
  have failFast := (recovers_option "fail-fast" (by simp) bools).fieldOr keyed 1 rfl "fail_fast"
    (by decide)
  have maxParallel := (recovers_integer "max-parallel" s.maxParallel).fieldOr keyed 2 rfl
    "max_parallel" (by decide)
  simp only [Strategy.decode, Strategy.document, record, entries?, Value.bare, matrix, failFast,
    maxParallel, Checked.pure_bind]

theorem Container.decode_document (c : Container) (at_ : Location) :
    Container.decode at_ (c.document explicit) = pure c := by
  by_cases short : (!explicit && c.env.isEmpty) = true
  · obtain ⟨image, env⟩ := c
    simp only [Bool.and_eq_true] at short
    obtain rfl := Bindings.eq_empty_of_isEmpty short.2
    rw [Container.document, if_pos (by simpa using short)]
    rfl
  · have keyed : Keyed c.fields ["image", "env"] := ⟨rfl, by decide⟩
    have shown : Value.field? "image" (writeRecord explicit c.fields) = some (.text c.image) := by
      have found := field?_writeRecord explicit keyed.nodup_keys (List.mem_cons_self : _ ∈ c.fields)
      simpa [Field.isShown] using found
    have image : text at_ (.text c.image) = pure c.image := rfl
    have env := (recovers_texts "env" c.env).fieldOr keyed 1 rfl "env" (by decide)
    rw [Container.document, if_neg short]
    simp only [Container.decode, text?, record, entries?, Value.bare, field?, shown, image, env,
      Checked.pure_bind]
    rfl

theorem Labels.recovers (key : String) (l : Labels) :
    Recovers (orNull .none Labels.decode) .none ⟨key, l.document, l == .none⟩ l where
  reads at_ := by
    have present : orNull .none Labels.decode at_ l.document = Labels.decode at_ l.document := by
      cases l <;> rfl
    rw [present, Labels.decode_document]
  default blank := beq_iff_eq.mp blank

theorem Container.document_ne_null (c : Container) : c.document explicit ≠ .null := by
  unfold Container.document
  split <;> simp

theorem Job.decode_document (key : String) (j : Job) (at_ : Location) :
    Job.decode key at_ (j.document explicit) = pure (j.named key) := by
  have keyed : Keyed (j.fields explicit) ["name", "runs-on", "needs", "if", "env", "steps",
      "strategy", "outputs", "container"] := ⟨rfl, by decide⟩
  have name := (recovers_written "name" j.name).fieldOr keyed 0 rfl "name" (by decide)
  have runsOn := (Labels.recovers "runs-on" j.runsOn).fieldOr keyed 1 rfl "runs_on" (by decide)
  have needs := (Labels.recovers "needs" j.needs).fieldOr keyed 2 rfl "needs" (by decide)
  have condition := (recovers_written "if" j.condition).fieldOr keyed 3 rfl "if_" (by decide)
  have env := (recovers_texts "env" j.env).fieldOr keyed 4 rfl "env" (by decide)
  have items : ∀ s ∈ j.steps, ∀ at_, Step.decode at_ (s.document explicit) = pure s :=
    fun s _ => s.decode_document explicit
  have steps := (recovers_list "steps" items).fieldOr keyed 5 rfl "steps" (by decide)
  have strategies : ∀ s ∈ j.strategy, ∀ at_, Strategy.decode at_ (s.document explicit) = pure s :=
    fun s _ => s.decode_document explicit
  have strategy := (recovers_option "strategy" (by simp [Strategy.document]) strategies).fieldOr keyed 6
    rfl "strategy" (by decide)
  have outputs := (recovers_texts "outputs" j.outputs).fieldOr keyed 7 rfl "outputs" (by decide)
  have containers : ∀ c ∈ j.container, ∀ at_, Container.decode at_ (c.document explicit) = pure c :=
    fun c _ => c.decode_document explicit
  have container := (recovers_option "container" (fun c _ => c.document_ne_null explicit)
    containers).fieldOr keyed 8 rfl "container" (by decide)
  simp only [Job.decode, Job.document, record, entries?, Value.bare, name, runsOn, needs, condition,
    env, steps, strategy, outputs, container, Checked.pure_bind]
  rfl

end Parts

theorem restoreOn_writeRecord (explicit : Bool) (fields : List Field) :
    restoreOn (writeRecord explicit fields) = writeRecord explicit fields := by
  have absent : Value.valueAt? (.bool true) (writeRecord explicit fields) = none := by
    unfold writeRecord
    induction fields.filter (Field.isShown explicit) with
    | nil => rfl
    | cons f r ih => exact ih
  rw [restoreOn, absent]

theorem Workflow.read_document (explicit : Bool) (w : Workflow) :
    Workflow.read (writeRecord explicit (w.fields explicit)) = pure w.named := by
  have keyed : Keyed (w.fields explicit) ["name", "on", "env", "jobs"] := ⟨rfl, by decide⟩
  have name := (recovers_text "name" w.name).fieldOr keyed 0 rfl "name" (by decide)
  have kept : Recovers (fun _ v => pure v) .null ⟨"on", w.on, w.on.isNull⟩ w.on := by
    refine ⟨fun _ => rfl, fun null => ?_⟩
    unfold Value.isNull at null
    split at null
    · assumption
    · cases null
  have on := kept.fieldOr keyed 1 rfl "on" (by decide)
  have env := (recovers_texts "env" w.env).fieldOr keyed 2 rfl "env" (by decide)
  have each : ∀ e ∈ w.jobs.entries, ∀ at_,
      Job.decode e.1 at_ (e.2.document explicit) = pure (e.2.named e.1) :=
    fun e _ => e.2.decode_document explicit e.1
  have jobs := (recovers_table "jobs" (fun k j => Job.named k j) each).fieldOr keyed 3 rfl "jobs"
    (by decide)
  simp only [Workflow.read, name, on, env, jobs, Checked.pure_bind]
  rfl

theorem Workflow.decode_document_named (explicit : Bool) (w : Workflow) :
    Workflow.decode (w.document explicit) = .ok w.named := by
  have read : (Workflow.read (writeRecord explicit (w.fields explicit))).toExcept = .ok w.named := by
    rw [Workflow.read_document]
    rfl
  simp only [Workflow.decode, Workflow.document, entries?, Value.bare, restoreOn_writeRecord, read]
  rfl

theorem Job.named_eq_iff (key : String) (j : Job) : j.named key = j ↔ (j.name = "" → key = "") := by
  obtain ⟨name, _⟩ := j
  by_cases unnamed : name = "" <;> simp [Job.named, unnamed]

theorem Workflow.named_eq_iff (w : Workflow) :
    w.named = w ↔ ∀ e ∈ w.jobs.entries, e.2.name = "" → e.1 = "" := by
  let filled : List (String × Job) := w.jobs.entries.map fun e => (e.1, e.2.named e.1)
  have nodup : (filled.map Prod.fst).Nodup := by
    simpa [filled, Function.comp_def] using w.jobs.nodup
  have jobs : w.named = w ↔ filled = w.jobs.entries := by
    constructor
    · intro same
      rw [← Bindings.entries_ofList nodup]
      exact congrArg (fun x : Workflow => x.jobs.entries) same
    · intro same
      change { w with jobs := .ofList filled } = w
      rw [same, Bindings.ofList_entries]
  calc w.named = w ↔ filled = w.jobs.entries := jobs
    _ ↔ ∀ e ∈ w.jobs.entries, (e.1, e.2.named e.1) = e := by
      conv_lhs => rw [← List.map_id w.jobs.entries]
      exact List.map_inj_left
    _ ↔ ∀ e ∈ w.jobs.entries, e.2.name = "" → e.1 = "" := by
      refine forall₂_congr fun e _ => ?_
      rw [← Job.named_eq_iff, Prod.ext_iff]
      exact and_iff_right rfl

/-- A workflow that is written out is decoded as itself exactly if its jobs without a name have empty
keys; the name of any other such job becomes its key. -/
theorem Workflow.decode_document_iff (explicit : Bool) (w : Workflow) :
    Workflow.decode (w.document explicit) = .ok w ↔ ∀ e ∈ w.jobs.entries, e.2.name = "" → e.1 = "" := by
  rw [Workflow.decode_document_named, ← Workflow.named_eq_iff, Except.ok.injEq]

example : Workflow.document false ⟨"CI", .text "push", ∅, .ofList [("build", { (default : Job) with
      runsOn := .one "ubuntu-latest", steps := [{ (default : Step) with run := "make" }] })]⟩ =
    .map [(.text "name", .text "CI"), (.text "on", .text "push"), (.text "jobs", .map [
      (.text "build", .map [(.text "runs-on", .text "ubuntu-latest"),
        (.text "steps", .list [.map [(.text "run", .text "make")]])])])] := rfl

end Drydock
