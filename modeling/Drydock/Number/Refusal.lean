import Drydock.Number.Integer
import Drydock.Text.Quoted

set_option autoImplicit false
set_option relaxedAutoImplicit false

/-!
The wording for texts that write no number, and for integers that cannot be written.
-/

namespace Drydock.Number

/-- How much of a quoted text is shown. -/
def shownQuote : Nat := 200

/-- The bound on the digits of an integer, and the details of its violation. -/
def digitBound (details : String) : String :=
  s!"Exceeds the limit ({mostDigits} digits) for integer string conversion{details}; " ++
    "use sys.set_int_max_str_digits() to increase the limit"

/-- The refusal to write an integer that has too many digits. -/
def notWritable : String := digitBound ""

/-- The refusal of a text that writes no integer; only the start of a long text is shown. -/
def IntegerFault.message (base : Nat) (text : String) : IntegerFault → String
  | .malformed => s!"invalid literal for int() with base {base}: " ++
    String.ofList ((Text.quoted text).toList.take shownQuote)
  | .tooLong digits => digitBound s!": value has {digits} digits"

/-- The refusal of a text that writes no real number. -/
def notReal (text : String) : String :=
  "could not convert string to float: " ++ Text.quoted text

/-- The refusal of an integer that lies beyond the greatest double. -/
def beyondDoubles : String := "int too large to convert to float"

end Drydock.Number
