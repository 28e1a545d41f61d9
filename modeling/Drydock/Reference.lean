import Drydock.Bindings
import Drydock.Text.Blank
import Drydock.Text.Search

set_option autoImplicit false
set_option relaxedAutoImplicit false

/-!
References to what earlier steps left behind: an output of a step, or a variable. Both are written
as dotted names, with blanks allowed around the whole and nowhere inside.
-/

namespace Drydock

open Text (splitAtChar words)

/-- What a reference names. -/
inductive Reference
  | output (step name : String)
  | env (name : String)
  deriving DecidableEq, Repr

namespace Reference

/-- The reference that dotted segments write; no name may be empty. -/
def ofSegments? : List (List Char) → Option Reference
  | [scope, step, member, name] =>
    if scope = "steps".toList ∧ member = "outputs".toList ∧ step ≠ [] ∧ name ≠ [] then
      some (.output (String.ofList step) (String.ofList name))
    else none
  | [scope, name] =>
    if scope = "env".toList ∧ name ≠ [] then some (.env (String.ofList name)) else none
  | _ => none

/-- The reference that a text writes. -/
def parse? (cs : List Char) : Option Reference :=
  match words cs with
  | [word] => ofSegments? (splitAtChar '.' word)
  | _ => none

/-- The text that a reference stands for; what was never set is empty. -/
def value (outputs : Bindings (Bindings String)) (env : Bindings String) : Reference → String
  | .output step name => ((outputs.get? step).bind (·.get? name)).getD ""
  | .env name => (env.get? name).getD ""

/-- The plain spelling of a reference. -/
def spelling : Reference → String
  | .output step name => "steps." ++ step ++ ".outputs." ++ name
  | .env name => "env." ++ name

end Reference

end Drydock
