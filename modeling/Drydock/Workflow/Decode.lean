import Drydock.Document
import Drydock.Schema.Field
import Drydock.Workflow.Basic

set_option autoImplicit false
set_option relaxedAutoImplicit false

/-!
Workflows from documents. Unknown keys are passed over; all places that do not fit are reported
together. A bare `on` reads as the truth value true, so a key equal to true stands for it.
-/

namespace Drydock

open Schema

instance : Inhabited Container := ⟨⟨"", ∅⟩⟩

instance : Inhabited Strategy := ⟨⟨∅, none, 0⟩⟩

instance : Inhabited Workflow := ⟨⟨"", .null, ∅, ∅⟩⟩

/-- The labels that a field holds. -/
def Labels.decode (at_ : Location) (v : Value) : Checked Labels :=
  let found := textOrTexts at_ v
  let labels := match found.value with
    | .inl label => Labels.one label
    | .inr labels => .many labels
  Checked.collapse at_ ⟨labels, found.problems⟩

/-- A step. -/
def Step.decode (at_ : Location) : Value → Checked Step :=
  record at_ fun es => do
    let id ← fieldOr es at_ "id" "id" "" written
    let name ← fieldOr es at_ "name" "name" "" written
    let condition ← fieldOr es at_ "if" "if_" "" written
    let run ← fieldOr es at_ "run" "run" "" written
    let uses ← fieldOr es at_ "uses" "uses" "" written
    let inputs ← fieldOr es at_ "with" "with_" ∅ texts
    let env ← fieldOr es at_ "env" "env" ∅ texts
    return ⟨id, name, condition, run, uses, inputs, env⟩

/-- A container: an image, or a record with an image. -/
def Container.decode (at_ : Location) (v : Value) : Checked Container :=
  match text? v with
  | some image => pure ⟨image, ∅⟩
  | none =>
    Checked.collapse at_ <| record at_ (fun es => do
      let image ← match field? es "image" "image" with
        | some (_, v) => text at_ v
        | none => .misfit at_
      let env ← fieldOr es at_ "env" "env" ∅ texts
      return ⟨image, env⟩) v

/-- A matrix of variants. -/
def Strategy.decode (at_ : Location) : Value → Checked Strategy :=
  record at_ fun es => do
    let matrix ← fieldOr es at_ "matrix" "matrix" ∅ fun at_ => table at_ fun _ _ v => pure v
    let failFast ← fieldOr es at_ "fail-fast" "fail_fast" none (optional bool)
    let maxParallel ← fieldOr es at_ "max-parallel" "max_parallel" 0 integer
    return ⟨matrix, failFast, maxParallel⟩

/-- A job. One without a name gets its key. -/
def Job.decode (key : String) (at_ : Location) : Value → Checked Job :=
  record at_ fun es => do
    let name ← fieldOr es at_ "name" "name" "" written
    let runsOn ← fieldOr es at_ "runs-on" "runs_on" .none (orNull .none Labels.decode)
    let needs ← fieldOr es at_ "needs" "needs" .none (orNull .none Labels.decode)
    let condition ← fieldOr es at_ "if" "if_" "" written
    let env ← fieldOr es at_ "env" "env" ∅ texts
    let steps ← fieldOr es at_ "steps" "steps" []
      (orNull [] fun at_ => list at_ Step.decode)
    let strategy ← fieldOr es at_ "strategy" "strategy" none (optional Strategy.decode)
    let outputs ← fieldOr es at_ "outputs" "outputs" ∅ texts
    let container ← fieldOr es at_ "container" "container" none (optional Container.decode)
    return ⟨if name = "" then key else name, runsOn, needs, condition, env, steps, strategy,
      outputs, container⟩

/-- Moves the value under a key equal to true to the key `on`. -/
def restoreOn (es : Entries) : Entries :=
  match Value.valueAt? (.bool true) es with
  | some v => Value.putField (.text "on") v (es.filter fun e => !e.1.same (.bool true))
  | none => es

/-- A workflow. -/
def Workflow.read (es : Entries) : Checked Workflow := do
  let name ← fieldOr es [] "name" "name" "" text
  let on ← fieldOr es [] "on" "on" .null fun _ v => pure v
  let env ← fieldOr es [] "env" "env" ∅ texts
  let jobs ← fieldOr es [] "jobs" "jobs" ∅ fun at_ => table at_ Job.decode
  return ⟨name, on, env, jobs⟩

/-- The workflow of a document; the empty document is the empty workflow. -/
def Workflow.decode (v : Value) : Except DocumentFault Workflow :=
  match v, entries? v with
  | .null, _ => (Workflow.read []).toExcept.mapError .misfit
  | _, some entries => (Workflow.read (restoreOn entries)).toExcept.mapError .misfit
  | _, none => .error .notMapping

/-- The workflow of a text. What the root is inside itself has its key `on` as well. -/
def Workflow.parse (text : String) : Except DocumentFault Workflow :=
  match Yaml.load restoreOn text with
  | .error fault => .error (.unreadable fault)
  | .ok v => Workflow.decode v

end Drydock
