import Drydock.Expr.Fault
import Drydock.Value.Json

set_option autoImplicit false
set_option relaxedAutoImplicit false

/-!
How a condition sees values: as text for equality and text functions, as a truth value for the
connectives, as a double for comparisons by size, and as it appears in a trace.
-/

namespace Drydock.Expr

/-- A value as text. A double without fraction below `10^21` is written as an integer. -/
def asText : Value → String
  | .null => ""
  | .bool b => if b then "true" else "false"
  | .float x =>
    match Number.exactInt? x with
    | some n => if n.natAbs < Number.tenTo 21 then toString n else Number.plain.text x
    | none => Number.plain.text x
  | .scalar s => s.jsonBare
  | v => v.json .compact

/-- Absence, the empty text and zero are false. -/
def asBool : Value → Bool
  | .null => false
  | .bool b => b
  | .int n => n != 0
  | .float x => x != 0
  | .text s => s != ""
  | _ => true

/-- A value as a double: whatever is no number counts as zero. -/
def asFloat : Value → Except EvalFault Float
  | .int n =>
    match Number.ofInt? n with
    | some x => .ok x
    | none => .error .integerTooLarge
  | .float x => .ok x
  | _ => .ok 0

/-- A value in a trace: texts in quotes, absence by name. -/
def inTrace : Value → String
  | .null => "null"
  | .text s => "'" ++ s ++ "'"
  | v => asText v

end Drydock.Expr
