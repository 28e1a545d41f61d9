import Drydock.Bindings
import Drydock.Text.Blank
import Drydock.Text.Lines
import Drydock.Text.Search

set_option autoImplicit false
set_option relaxedAutoImplicit false

/-!
Assignments that a step writes into a file, one `NAME=VALUE` a line. Names and values are trimmed,
zero characters are dropped, and lines without an equals sign or without a name are passed over.
-/

namespace Drydock.Assignments

open Text (cutAt? splitLines trim)

/-- The assignment of a line. -/
def ofLine? (line : List Char) : Option (String × String) :=
  match cutAt? ['='] (trim line) with
  | some (name, value) =>
    if trim name = [] then none
    else some (String.ofList (trim name), String.ofList (trim value))
  | none => none

/-- The lines of a text without zero characters. -/
def lines (text : String) : List (List Char) :=
  splitLines (text.toList.filter (· ≠ '\x00'))

/-- The assignments of a text; a later one overrides an earlier one in its place. -/
def parse (text : String) : Bindings String :=
  .ofList ((lines text).filterMap ofLine?)

/-- The lines that write assignments. -/
def render (b : Bindings String) : String :=
  "\n".intercalate (b.entries.map fun e => e.1 ++ "=" ++ e.2)

end Drydock.Assignments
