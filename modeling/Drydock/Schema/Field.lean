import Drydock.Bindings
import Drydock.Number.Lenient
import Drydock.Schema.Checked
import Drydock.Text.Utf8
import Drydock.Value.Text

set_option autoImplicit false
set_option relaxedAutoImplicit false

/-!
The kinds of fields that documents have. Some accept texts alone, some take any value as the text
its author meant, maps of texts do so for keys and values, and truth values and integers are read
leniently.
-/

namespace Drydock.Schema

/-- The entries of a record. -/
abbrev Entries := List (Scalar × Value)

/-- A field, by its name in documents or else by its other name, with the name it was found by. -/
def field? (entries : Entries) (name other : String) : Option (String × Value) :=
  match Value.field? name entries with
  | some v => some (name, v)
  | none => (Value.field? other entries).map (other, ·)

/-- A field read where it is present, at the place of the name it was found by. -/
def fieldOr {α : Type} (entries : Entries) (at_ : Location) (name other : String) (absent : α)
    (read : Location → Value → Checked α) : Checked α :=
  match field? entries name other with
  | some (found, v) => read (at_ ++ [found]) v
  | none => pure absent

/-- The entries of a map. -/
def entries? (v : Value) : Option Entries :=
  match v.bare with
  | .map entries => some entries
  | _ => none

/-- The items of a list, of a pair or of a set. -/
def items? (v : Value) : Option (List Value) :=
  match v.bare with
  | .list items => some items
  | .pair a b => some [a, b]
  | .set items => some (items.map .scalar)
  | _ => none

/-- The text that a scalar is, or that its bytes write. -/
def scalarText? : Scalar → Option String
  | .text s => some s
  | .bytes b => (Text.Utf8.decode b).toOption.map String.ofList
  | _ => none

/-- The text that a value is, or that its bytes write. -/
def text? : Value → Option String
  | .scalar s => scalarText? s
  | _ => none

/-- A record. -/
def record {α : Type} [Inhabited α] (at_ : Location) (read : Entries → Checked α) (v : Value) :
    Checked α :=
  match entries? v with
  | some entries => read entries
  | none => .misfit at_

/-- A text and nothing else. -/
def text (at_ : Location) (v : Value) : Checked String :=
  .ofOption at_ (text? v)

/-- Any value that can be written, as the text its author meant. -/
def written (at_ : Location) (v : Value) : Checked String :=
  if v.isWritable then pure v.asWritten else .misfit at_

/-- The key of a map as a place. Truth values count as one and zero. -/
def keySegment : Scalar → String
  | .bool b => if b then "1" else "0"
  | .text s => s
  | k => k.nested

/-- A map whose keys and values are taken as texts; absence is the empty map. -/
def texts (at_ : Location) (v : Value) : Checked (Bindings String) :=
  match v, entries? v with
  | .null, _ => pure ∅
  | _, some entries =>
    if entries.all fun e => e.1.isWritable && e.2.isWritable then
      pure (.ofList (entries.map fun e => (e.1.alone, e.2.asWritten)))
    else .misfit at_
  | _, none => .misfit at_

/-- The key of a map of records, which has to be a text. -/
def key (at_ : Location) (k : Scalar) : Checked String :=
  .ofOption (at_ ++ [keySegment k, "[key]"]) (scalarText? k)

/-- A map with texts as keys. -/
def table {α : Type} (at_ : Location) (read : String → Location → Value → Checked α) (v : Value) :
    Checked (Bindings α) :=
  match entries? v with
  | some entries => do
    let es ← Checked.all (fun e => do
      let k ← key at_ e.1
      let v ← read k (at_ ++ [keySegment e.1]) e.2
      return (k, v)) entries
    return .ofList es
  | none => .misfit at_

/-- Reads the items of a list from an index on. -/
def itemsFrom {α : Type} (at_ : Location) (read : Location → Value → Checked α) :
    Nat → List Value → Checked (List α)
  | _, [] => pure []
  | i, v :: r => do
    let a ← read (at_ ++ [toString i]) v
    let as ← itemsFrom at_ read (i + 1) r
    return a :: as

/-- A list. -/
def list {α : Type} (at_ : Location) (read : Location → Value → Checked α) (v : Value) :
    Checked (List α) :=
  match items? v with
  | some items => itemsFrom at_ read 0 items
  | none => .misfit at_

/-- Absence counts as the given value. -/
def orNull {α : Type} (absent : α) (read : Location → Value → Checked α) (at_ : Location) :
    Value → Checked α
  | .null => pure absent
  | v => read at_ v

/-- Absence is admitted. -/
def optional {α : Type} (read : Location → Value → Checked α) (at_ : Location) :
    Value → Checked (Option α)
  | .null => pure none
  | v => do return some (← read at_ v)

/-- The words for true. -/
def trueWords : List String := ["1", "on", "t", "true", "y", "yes"]

/-- The words for false. -/
def falseWords : List String := ["0", "off", "f", "false", "n", "no"]

/-- The truth value of a word in any case. -/
def wordBool? (s : String) : Option Bool :=
  let word := s.map Char.toLower
  if word ∈ trueWords then some true else if word ∈ falseWords then some false else none

/-- The truth value that a value stands for: itself, one or zero, or a word. -/
def lenientBool? : Value → Option Bool
  | .bool b => some b
  | .int n => if n = 1 then some true else if n = 0 then some false else none
  | .float x => if x == 1 then some true else if x == 0 then some false else none
  | v => (text? v).bind wordBool?

/-- The integer that a value stands for: a double needs a fraction of zero and to lie within 64
bits. -/
def integer? : Value → Option Int
  | .int n => some n
  | .bool b => some (if b then 1 else 0)
  | .float x => (Number.exactInt? x).filter fun n => n.natAbs < Number.twoTo 63
  | v => (text? v).bind fun s => Number.lenientInteger? s.toList

/-- A truth value. -/
def bool (at_ : Location) (v : Value) : Checked Bool :=
  .ofOption at_ (lenientBool? v)

/-- An integer. -/
def integer (at_ : Location) (v : Value) : Checked Int :=
  .ofOption at_ (integer? v)

/-- One text or a list of texts. -/
def textOrTexts (at_ : Location) (v : Value) : Checked (String ⊕ List String) :=
  match text? v with
  | some s => pure (.inl s)
  | none => do return .inr (← list at_ text v)

end Drydock.Schema
