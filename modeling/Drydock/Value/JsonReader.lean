import Drydock.Number.Integer
import Drydock.Value.Basic

set_option autoImplicit false
set_option relaxedAutoImplicit false

/-!
Plain data from JSON. The members of an object keep their order; of two with one name the later one
overwrites the value of the earlier one. A number with a fraction or an exponent is a double.
-/

namespace Drydock.JsonReader

open Text (after?)

/-- What follows the space at the start of a text. -/
def skipBlanks (cs : List Char) : List Char :=
  cs.dropWhile fun c => c == ' ' || c == '\t' || c == '\n' || c == '\r'

/-- What a letter after a backslash stands for. -/
def escapeChar? (c : Char) : Option Char :=
  match c with
  | '"' => some '"'
  | '\\' => some '\\'
  | '/' => some '/'
  | 'b' => some (Char.ofNat 8)
  | 'f' => some (Char.ofNat 12)
  | 'n' => some '\n'
  | 'r' => some '\r'
  | 't' => some '\t'
  | _ => none

/-- The UTF-16 unit of four hexadecimal digits. -/
def unit? (cs : List Char) : Option (Nat × List Char) := do
  let digits ← (cs.take 4).mapM (Number.digitIn? 16)
  if digits.length = 4 then some (Number.ofDigits 16 digits, cs.drop 4) else none

/-- The character of one unit or of two; half a pair that stands alone is replaced. -/
def unitChar? (cs : List Char) : Option (Char × List Char) := do
  let (high, r) ← unit? cs
  match (after? ['\\', 'u'] r).bind unit? with
  | some (low, rest) =>
    if 0xD800 ≤ high ∧ high < 0xDC00 ∧ 0xDC00 ≤ low ∧ low < 0xE000 then
      return (Char.ofNat (0x10000 + (high - 0xD800) * 0x400 + (low - 0xDC00)), rest)
    else return (if high.isValidChar then Char.ofNat high else Char.ofNat 0xFFFD, r)
  | none => return (if high.isValidChar then Char.ofNat high else Char.ofNat 0xFFFD, r)

/-- The characters of a text up to its closing quote. -/
def textFrom : Nat → List Char → Option (List Char × List Char)
  | 0, _ => none
  | _, [] => none
  | _, '"' :: r => some ([], r)
  | n + 1, '\\' :: r => do
    let (c, r) ← match r with
      | 'u' :: r => unitChar? r
      | e :: r => (escapeChar? e).map (·, r)
      | [] => none
    let (cs, r) ← textFrom n r
    return (c :: cs, r)
  | n + 1, c :: r =>
    if c.toNat < 32 then none
    else do
      let (cs, r) ← textFrom n r
      return (c :: cs, r)

/-- A text behind its opening quote. -/
def text (cs : List Char) : Option (String × List Char) := do
  let (s, r) ← textFrom (cs.length + 1) cs
  return (String.ofList s, r)

/-- A character of a number. -/
def isNumberChar (c : Char) : Bool :=
  Text.isAsciiDigit c || ['-', '+', '.', 'e', 'E'].contains c

/-- A number. -/
def number (cs : List Char) : Option (Value × List Char) := do
  let run := cs.takeWhile isNumberChar
  let v ←
    if run.all fun c => c == '-' || Text.isAsciiDigit c then
      (Number.readInteger run).toOption.map Value.int
    else (Number.readFloat? run).map Value.float
  return (v, cs.drop run.length)

/-- A word that stands for a value. -/
def word (cs : List Char) : Option (Value × List Char) :=
  match after? "null".toList cs, after? "true".toList cs, after? "false".toList cs with
  | some r, _, _ => some (.null, r)
  | _, some r, _ => some (.bool true, r)
  | _, _, some r => some (.bool false, r)
  | none, none, none => number cs

mutual

/-- A value, with a bound on the steps. -/
def value : Nat → List Char → Option (Value × List Char)
  | 0, _ => none
  | n + 1, cs =>
    match skipBlanks cs with
    | '"' :: r => (text r).map fun found => (.text found.1, found.2)
    | '[' :: r =>
      match skipBlanks r with
      | ']' :: r => some (.list [], r)
      | r => (items n r).map fun found => (.list found.1, found.2)
    | '\x7b' :: r =>
      match skipBlanks r with
      | '\x7d' :: r => some (.map [], r)
      | r => (members n r).map fun found => (.ofEntries found.1, found.2)
    | r => word r
termination_by structural n => n

/-- The items of a list up to its end. -/
def items : Nat → List Char → Option (List Value × List Char)
  | 0, _ => none
  | n + 1, cs => do
    let (v, r) ← value n cs
    match skipBlanks r with
    | ']' :: r => return ([v], r)
    | ',' :: r => do
      let (vs, r) ← items n r
      return (v :: vs, r)
    | _ => none
termination_by structural n => n

/-- The members of an object up to its end. -/
def members : Nat → List Char → Option (List (Scalar × Value) × List Char)
  | 0, _ => none
  | n + 1, cs =>
    match skipBlanks cs with
    | '"' :: r => do
      let (name, r) ← text r
      match skipBlanks r with
      | ':' :: r => do
        let (v, r) ← value n r
        match skipBlanks r with
        | '\x7d' :: r => return ([(.text name, v)], r)
        | ',' :: r => do
          let (es, r) ← members n r
          return ((.text name, v) :: es, r)
        | _ => none
      | _ => none
    | _ => none
termination_by structural n => n

end

end Drydock.JsonReader

namespace Drydock.Value

/-- The value that a text writes in JSON. -/
def ofJson? (text : String) : Option Value :=
  match JsonReader.value (text.length + 1) text.toList with
  | some (v, r) => if JsonReader.skipBlanks r = [] then some v else none
  | none => none

end Drydock.Value
