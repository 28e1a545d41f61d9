import Drydock.Action.Metadata
import Drydock.Text.Upper

set_option autoImplicit false
set_option relaxedAutoImplicit false

/-!
The inputs of an action: declared defaults under what the step gives, handed over as variables.
-/

namespace Drydock

/-- The defaults of declared inputs that are not empty, and over them what a step gives. -/
def ActionMetadata.inputsFor (a : ActionMetadata) (s : Step) : Bindings String :=
  (Bindings.ofList (a.inputs.entries.filterMap fun e =>
    if e.2.default = "" then none else some (e.1, e.2.default))).update s.inputs

/-- The variable of an input: hyphens become underscores, and letters capitals. -/
def inputVariable (name : String) : String :=
  "INPUT_" ++ Text.upper (String.ofList (name.toList.map fun c => if c = '-' then '_' else c))

/-- The variables of inputs. -/
def inputEnvironment (inputs : Bindings String) : Bindings String :=
  .ofList (inputs.entries.map fun e => (inputVariable e.1, e.2))

end Drydock
