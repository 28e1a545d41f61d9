import Drydock.Number.Integer
import Drydock.Text.Quoted
import Drydock.Value.Basic

set_option autoImplicit false
set_option relaxedAutoImplicit false

/-!
Plain data as text. The nested form quotes texts and spells out absence and truth with a capital;
the outer form differs from it for texts, days and moments alone. Inside a collection that holds
itself, the collection is shown as brackets around dots.
-/

namespace Drydock

open Text (quoted)

/-- A scalar inside a list or a map. -/
def Scalar.nested : Scalar → String
  | .null => "None"
  | .bool b => if b then "True" else "False"
  | .int n => toString n
  | .float x => Number.plain.text x
  | .text s => quoted s
  | .bytes b => Text.quotedBytes b
  | .date d => d.nested
  | .moment m => m.nested

/-- A scalar standing alone. -/
def Scalar.alone : Scalar → String
  | .text s => s
  | .date d => d.text
  | .moment m => m.text
  | s => s.nested

/-- The word for a kind of scalar. -/
def Scalar.kindName : Scalar → String
  | .null => "NoneType"
  | .bool _ => "bool"
  | .int _ => "int"
  | .float _ => "float"
  | .text _ => "str"
  | .bytes _ => "bytes"
  | .date _ => "datetime.date"
  | .moment _ => "datetime.datetime"

/-- A scalar can be written, which an integer with too many digits cannot. -/
def Scalar.isWritable : Scalar → Bool
  | .int n => Number.isWritable n
  | _ => true

namespace Value

/-- The word for a kind of value. -/
def kindName : Value → String
  | .scalar s => s.kindName
  | .list _ => "list"
  | .map _ => "dict"
  | .set _ => "set"
  | .pair _ _ => "tuple"
  | .labelled _ content => content.kindName

/-- A collection that is being shown already. -/
def dots : Value → String
  | .map _ => "\x7b...\x7d"
  | .pair _ _ => "(...)"
  | .labelled _ content => content.dots
  | _ => "[...]"

/-- A set of scalars. -/
def nestedSet (items : List Scalar) : String :=
  if items.isEmpty then "set()"
  else "\x7b" ++ ", ".intercalate (items.map Scalar.nested) ++ "\x7d"

mutual

/-- A value inside a list or a map; `shown` are the labels of the collections around it. -/
def nestedIn (shown : List Nat) : Value → String
  | .scalar s => s.nested
  | .list items => "[" ++ nestedItems shown items ++ "]"
  | .map entries => "\x7b" ++ nestedEntries shown entries ++ "\x7d"
  | .set items => nestedSet items
  | .pair a b => "(" ++ nestedIn shown a ++ ", " ++ nestedIn shown b ++ ")"
  | .labelled id content => if shown.contains id then content.dots else nestedIn (id :: shown) content
termination_by structural v => v

/-- The items of a list, separated by commas. -/
def nestedItems (shown : List Nat) : List Value → String
  | [] => ""
  | [v] => nestedIn shown v
  | v :: r => nestedIn shown v ++ ", " ++ nestedItems shown r
termination_by structural items => items

/-- The entries of a map, separated by commas. -/
def nestedEntries (shown : List Nat) : List (Scalar × Value) → String
  | [] => ""
  | [(k, v)] => k.nested ++ ": " ++ nestedIn shown v
  | (k, v) :: r => k.nested ++ ": " ++ nestedIn shown v ++ ", " ++ nestedEntries shown r
termination_by structural entries => entries

end

mutual

/-- A value can be written as text; `shown` is as for the text. -/
def isWritableIn (shown : List Nat) : Value → Bool
  | .scalar s => s.isWritable
  | .list items => areWritableIn shown items
  | .map entries => areEntriesWritableIn shown entries
  | .set items => items.all Scalar.isWritable
  | .pair a b => isWritableIn shown a && isWritableIn shown b
  | .labelled id content => shown.contains id || isWritableIn (id :: shown) content
termination_by structural v => v

/-- All items of a list can be written. -/
def areWritableIn (shown : List Nat) : List Value → Bool
  | [] => true
  | v :: r => isWritableIn shown v && areWritableIn shown r
termination_by structural items => items

/-- All keys and values of a map can be written. -/
def areEntriesWritableIn (shown : List Nat) : List (Scalar × Value) → Bool
  | [] => true
  | (k, v) :: r => k.isWritable && isWritableIn shown v && areEntriesWritableIn shown r
termination_by structural entries => entries

end

mutual

/-- A collection in a value holds itself; `around` are the labels of the collections around it. -/
def isEndlessIn (around : List Nat) : Value → Bool
  | .scalar _ => false
  | .list items => isAnyEndlessIn around items
  | .map entries => isAnyFieldEndlessIn around entries
  | .set _ => false
  | .pair a b => isEndlessIn around a || isEndlessIn around b
  | .labelled id content => around.contains id || isEndlessIn (id :: around) content
termination_by structural v => v

/-- A collection in one of the items holds itself. -/
def isAnyEndlessIn (around : List Nat) : List Value → Bool
  | [] => false
  | v :: r => isEndlessIn around v || isAnyEndlessIn around r
termination_by structural items => items

/-- A collection under one of the keys holds itself. -/
def isAnyFieldEndlessIn (around : List Nat) : List (Scalar × Value) → Bool
  | [] => false
  | (_, v) :: r => isEndlessIn around v || isAnyFieldEndlessIn around r
termination_by structural entries => entries

end

/-- A value cannot be listed to its end, because a collection in it holds itself. -/
def isEndless (v : Value) : Bool :=
  isEndlessIn [] v

/-- A value inside a list or a map. -/
def nested (v : Value) : String :=
  nestedIn [] v

/-- A value can be written as text. -/
def isWritable (v : Value) : Bool :=
  isWritableIn [] v

/-- A value standing alone. -/
def alone : Value → String
  | .scalar s => s.alone
  | v => v.nested

/-- The text that the author of a document meant by a value: nothing for absence, `true` or `false`
for a truth value. -/
def asWritten : Value → String
  | .null => ""
  | .bool b => if b then "true" else "false"
  | v => v.alone

end Value

end Drydock
