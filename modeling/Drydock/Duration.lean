import Drydock.Number.Refusal
import Drydock.Value.Text

set_option autoImplicit false
set_option relaxedAutoImplicit false

/-!
The seconds between two readings of a clock. Whole readings are subtracted exactly; a double on
either side makes the difference a double. What is no number can neither be subtracted nor shown.
-/

namespace Drydock

/-- Why there is no duration, or none that can be shown. -/
inductive DurationFault
  | difference (finish start : String)
  | shownText
  | shown (kind : String)
  | integerTooLarge
  deriving DecidableEq, Repr

/-- The wording of a fault. -/
def DurationFault.message : DurationFault → String
  | .difference finish start => s!"unsupported operand type(s) for -: '{finish}' and '{start}'"
  | .shownText => "Unknown format code 'f' for object of type 'str'"
  | .shown kind => s!"unsupported format string passed to {kind}.__format__"
  | .integerTooLarge => Number.beyondDoubles

namespace Duration

/-- The seconds that are shown for a value. -/
def seconds (v : Value) : Except DurationFault Float :=
  match v, v.whole? with
  | .float x, _ => .ok x
  | _, some n => (Number.ofInt? n).elim (.error .integerTooLarge) .ok
  | .text _, none => .error .shownText
  | v, none => .error (.shown v.kindName)

/-- The value is a number. -/
def isNumber : Value → Bool
  | .int _ | .bool _ | .float _ => true
  | _ => false

/-- The seconds from one reading to another. -/
def between (start finish : Value) : Except DurationFault Value :=
  match finish.whole?, start.whole? with
  | some m, some n => .ok (.int (m - n))
  | _, _ =>
    if isNumber finish && isNumber start then do
      return .float ((← seconds finish) - (← seconds start))
    else .error (.difference finish.kindName start.kindName)

end Duration

end Drydock
