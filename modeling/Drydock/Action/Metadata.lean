import Drydock.Workflow.Decode

set_option autoImplicit false
set_option relaxedAutoImplicit false

/-!
What an action says about itself: its inputs and outputs, and how it runs.
-/

namespace Drydock

open Schema

/-- An input of an action. -/
structure ActionInput where
  description : String
  required : Bool
  default : String
  deriving DecidableEq, Repr

instance : Inhabited ActionInput := ⟨⟨"", false, ""⟩⟩

/-- How an action runs. -/
structure ActionRuns where
  using_ : String
  image : String
  main : String
  steps : List Step
  env : Bindings String
  deriving DecidableEq, Repr

instance : Inhabited ActionRuns := ⟨⟨"", "", "", [], ∅⟩⟩

/-- An action's description of itself. Outputs have descriptions alone. -/
structure ActionMetadata where
  name : String
  description : String
  inputs : Bindings ActionInput
  outputs : Bindings String
  runs : ActionRuns
  deriving DecidableEq, Repr

/-- An input. -/
def ActionInput.decode (at_ : Location) : Value → Checked ActionInput :=
  record at_ fun es => do
    let description ← fieldOr es at_ "description" "description" "" written
    let required ← fieldOr es at_ "required" "required" false bool
    let default ← fieldOr es at_ "default" "default" "" written
    return ⟨description, required, default⟩

/-- The description of an output. -/
def decodeOutput (at_ : Location) : Value → Checked String :=
  record at_ fun es => fieldOr es at_ "description" "description" "" text

/-- How an action runs. -/
def ActionRuns.decode (at_ : Location) : Value → Checked ActionRuns :=
  record at_ fun es => do
    let using_ ← fieldOr es at_ "using" "using" "" text
    let image ← fieldOr es at_ "image" "image" "" text
    let main ← fieldOr es at_ "main" "main" "" text
    let steps ← fieldOr es at_ "steps" "steps" [] fun at_ => list at_ Step.decode
    let env ← fieldOr es at_ "env" "env" ∅ texts
    return ⟨using_, image, main, steps, env⟩

/-- A map of declarations, where absence declares a name with no settings. -/
def declarations {α : Type} (read : Location → Value → Checked α) :
    Location → Value → Checked (Bindings α) :=
  orNull ∅ fun at_ => table at_ fun _ place v =>
    match v with
    | .null => read place (.map [])
    | v => read place v

/-- An action's description of itself. -/
def ActionMetadata.read (es : Entries) : Checked ActionMetadata := do
  let name ← fieldOr es [] "name" "name" "" text
  let description ← fieldOr es [] "description" "description" "" text
  let inputs ← fieldOr es [] "inputs" "inputs" ∅ (declarations ActionInput.decode)
  let outputs ← fieldOr es [] "outputs" "outputs" ∅ (declarations decodeOutput)
  let runs ← fieldOr es [] "runs" "runs" default ActionRuns.decode
  return ⟨name, description, inputs, outputs, runs⟩

/-- The description in a document. -/
def ActionMetadata.decode (v : Value) : Except DocumentFault ActionMetadata :=
  match entries? v with
  | some entries => (ActionMetadata.read entries).toExcept.mapError .misfit
  | none => .error .notMapping

/-- The description in a text. -/
def ActionMetadata.parse (text : String) : Except DocumentFault ActionMetadata :=
  match Yaml.load id text with
  | .error fault => .error (.unreadable fault)
  | .ok v => ActionMetadata.decode v

end Drydock
