set_option autoImplicit false
set_option relaxedAutoImplicit false

/-!
The tokens of a document. Indentation appears as the start and end of block collections.
-/

namespace Drydock.Yaml

/-- What a line that begins with a percent sign says. -/
inductive Directive
  | version (major : Nat)
  | handle (name expansion : String)
  | unknown
  deriving DecidableEq, Repr

/-- What keeps a text from being read any further. -/
inductive Obstacle
  /-- An escape with a number beyond the code points. -/
  | code (n : Nat)
  /-- A number in front of a document that has too many digits. -/
  | digits (count : Nat)
  deriving DecidableEq, Repr

/-- The tokens. -/
inductive Token
  | directive (d : Directive)
  | documentStart
  | documentEnd
  | blockSequence
  | blockMapping
  | blockEnd
  | flowSequence
  | flowSequenceEnd
  | flowMapping
  | flowMappingEnd
  | flowEntry
  | blockEntry
  | key
  | value
  | alias (name : String)
  | anchor (name : String)
  | tag (handle : Option String) (suffix : String)
  /-- A scalar that is not plain is never taken for anything but a text. -/
  | scalar (plain : Bool) (text : String)
  /-- Nothing behind it is read, and all that is open ends. -/
  | obstacle (o : Obstacle)
  deriving DecidableEq, Repr

end Drydock.Yaml
