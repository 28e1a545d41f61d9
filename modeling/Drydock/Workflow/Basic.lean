import Drydock.Bindings
import Drydock.Value.Text

set_option autoImplicit false
set_option relaxedAutoImplicit false

/-!
Workflows: named jobs with their steps, what they need and when they run.
-/

namespace Drydock

/-- A field that holds one label or a list of them. -/
inductive Labels
  | one (label : String)
  | many (labels : List String)
  deriving DecidableEq, Repr

namespace Labels

/-- No labels. -/
def none : Labels := .many []

instance : Inhabited Labels := ⟨none⟩

/-- The labels as a list. -/
def toList : Labels → List String
  | one label => [label]
  | many labels => labels

/-- A single label as it is, several in brackets. -/
def text (l : Labels) : String :=
  match l.toList with
  | [label] => label
  | labels => "[" ++ ", ".intercalate labels ++ "]"

/-- Labels from either form; both at once make no sense. -/
def ofForms? : Option String → Option (List String) → Option Labels
  | some _, some _ => Option.none
  | some label, Option.none => some (.one label)
  | Option.none, some labels => some (.many labels)
  | Option.none, Option.none => some none

/-- The wording of the refusal of both forms. -/
def bothForms : String := "Labels holds either a single value or a list, not both"

end Labels

/-- How a step does its work. -/
inductive StepKind
  | run | action
  deriving DecidableEq, Repr

/-- The word for a kind of step. -/
def StepKind.text : StepKind → String
  | run => "run"
  | action => "action"

/-- One step of a job or of an action. -/
structure Step where
  id : String
  name : String
  condition : String
  run : String
  uses : String
  inputs : Bindings String
  env : Bindings String
  deriving DecidableEq, Repr

/-- A command takes precedence over an action. -/
def Step.kind (s : Step) : StepKind :=
  if s.run = "" ∧ s.uses ≠ "" then .action else .run

instance : Inhabited Step := ⟨⟨"", "", "", "", "", ∅, ∅⟩⟩

/-- The container that the commands of a job run in. -/
structure Container where
  image : String
  env : Bindings String
  deriving DecidableEq, Repr

/-- A matrix of variants. It is kept and not expanded. -/
structure Strategy where
  matrix : Bindings Value
  failFast : Option Bool
  maxParallel : Int
  deriving Repr

/-- A job. -/
structure Job where
  name : String
  runsOn : Labels
  needs : Labels
  condition : String
  env : Bindings String
  steps : List Step
  strategy : Option Strategy
  outputs : Bindings String
  container : Option Container
  deriving Repr

instance : Inhabited Job := ⟨⟨"", .none, .none, "", ∅, [], none, ∅, none⟩⟩

/-- The jobs that a job needs, as declared. -/
def Job.dependencies (j : Job) : List String :=
  j.needs.toList

/-- A workflow. -/
structure Workflow where
  name : String
  on : Value
  env : Bindings String
  jobs : Bindings Job
  deriving Repr

/-- The values that a job keeps as they are written. -/
def Job.values (j : Job) : List Value :=
  j.strategy.toList.flatMap fun s => s.matrix.entries.map (·.2)

/-- A workflow cannot be listed to its end, because a collection in it holds itself. -/
def Workflow.isEndless (w : Workflow) : Bool :=
  (w.on :: w.jobs.entries.flatMap fun e => e.2.values).any Value.isEndless

end Drydock
