import Drydock.Value.Text

set_option autoImplicit false
set_option relaxedAutoImplicit false

/-!
Plain data as JSON in ASCII: characters beyond it are escaped by their UTF-16 units. The separators
and the indentation are choices of the caller.
-/

namespace Drydock

open Text (hexDigits)

/-- What stands between the parts of a written value. -/
structure JsonStyle where
  comma : String
  colon : String
  /-- The blanks added at each level, each item on a line of its own; `none` writes one line. -/
  indent : Option Nat
  deriving Repr

/-- No blanks at all. -/
def JsonStyle.compact : JsonStyle := ⟨",", ":", none⟩

/-- A blank after each comma and colon. -/
def JsonStyle.spaced : JsonStyle := ⟨", ", ": ", none⟩

/-- A line for each item, indented by two blanks a level. -/
def JsonStyle.pretty : JsonStyle := ⟨",", ": ", some 2⟩

/-- A UTF-16 unit as an escape. -/
def jsonUnit (n : Nat) : List Char :=
  '\\' :: 'u' :: hexDigits 4 n

/-- A character inside a JSON text. -/
def jsonChar (c : Char) : List Char :=
  if c = '"' || c = '\\' then ['\\', c]
  else if c = '\n' then ['\\', 'n']
  else if c = '\r' then ['\\', 'r']
  else if c = '\t' then ['\\', 't']
  else if c.toNat = 8 then ['\\', 'b']
  else if c.toNat = 12 then ['\\', 'f']
  else if 32 ≤ c.toNat && c.toNat < 127 then [c]
  else if c.toNat < 0x10000 then jsonUnit c.toNat
  else
    let n := c.toNat - 0x10000
    jsonUnit (0xD800 + n / 0x400) ++ jsonUnit (0xDC00 + n % 0x400)

/-- A text in JSON. -/
def jsonText (s : String) : String :=
  String.ofList ('"' :: s.toList.flatMap jsonChar ++ ['"'])

/-- A double in JSON, with words for the values that JSON lacks. -/
def jsonFloat (x : Float) : String :=
  { Number.plain with nan := "NaN", infinity := "Infinity" : Number.Layout }.text x

/-- A scalar in JSON, without quotes if it is no text. -/
def Scalar.jsonBare : Scalar → String
  | .null => "null"
  | .bool b => if b then "true" else "false"
  | .int n => toString n
  | .float x => jsonFloat x
  | .text s => s
  | .bytes b => Text.quotedBytes b
  | .date d => d.text
  | .moment m => m.text

/-- A scalar as a JSON value. -/
def Scalar.json : Scalar → String
  | .text s => jsonText s
  | .bytes b => jsonText (Text.quotedBytes b)
  | .date d => jsonText d.text
  | .moment m => jsonText m.text
  | s => s.jsonBare

/-- The line break before an item at a level. -/
def JsonStyle.break (style : JsonStyle) (level : Nat) : String :=
  match style.indent with
  | none => ""
  | some n => String.ofList ('\n' :: List.replicate (n * level) ' ')

namespace Value

mutual

/-- A value in JSON at a level of nesting. -/
def jsonAt (style : JsonStyle) : Nat → Value → String
  | _, .scalar s => s.json
  | _, .list [] => "[]"
  | level, .list (v :: r) =>
    "[" ++ style.break (level + 1) ++ jsonItems style (level + 1) (v :: r) ++ style.break level ++ "]"
  | _, .map [] => "\x7b\x7d"
  | level, .map (e :: r) =>
    "\x7b" ++ style.break (level + 1) ++ jsonEntries style (level + 1) (e :: r) ++
      style.break level ++ "\x7d"
  | _, .set items => jsonText (nestedSet items)
  | level, .pair a b =>
    "[" ++ style.break (level + 1) ++ jsonAt style (level + 1) a ++ style.comma ++
      style.break (level + 1) ++ jsonAt style (level + 1) b ++ style.break level ++ "]"
  | level, .labelled _ content => jsonAt style level content
termination_by structural _ v => v

/-- The items of a list in JSON. -/
def jsonItems (style : JsonStyle) : Nat → List Value → String
  | _, [] => ""
  | level, [v] => jsonAt style level v
  | level, v :: r => jsonAt style level v ++ style.comma ++ style.break level ++ jsonItems style level r
termination_by structural _ items => items

/-- The entries of a map in JSON. -/
def jsonEntries (style : JsonStyle) : Nat → List (Scalar × Value) → String
  | _, [] => ""
  | level, [(k, v)] => jsonText k.jsonBare ++ style.colon ++ jsonAt style level v
  | level, (k, v) :: r =>
    jsonText k.jsonBare ++ style.colon ++ jsonAt style level v ++ style.comma ++ style.break level ++
      jsonEntries style level r
termination_by structural _ entries => entries

end

/-- A value in JSON. -/
def json (style : JsonStyle) (v : Value) : String :=
  jsonAt style 0 v

end Value

end Drydock
