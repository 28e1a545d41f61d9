import Drydock.Number.Refusal
import Drydock.Text.Base64
import Drydock.Text.Lower
import Drydock.Text.Quoted
import Drydock.Text.Search
import Drydock.Value.Basic
import Drydock.Yaml.Quoted

set_option autoImplicit false
set_option relaxedAutoImplicit false

/-!
What a scalar without quotes and tag is taken for, and the value of a scalar with a given tag. The
forms are those of YAML 1.1: truth words such as `yes`, integers in four bases and in base sixty,
doubles, days and moments, and absence.
-/

namespace Drydock.Yaml

open Text (isAsciiDigit splitAtChar)

/-- What a node is. -/
inductive Tag
  | null | bool | int | float | timestamp | text | binary
  | list | map | set | pairs
  /-- The key whose value stands for a mapping where a scalar is needed. -/
  | value
  /-- No value is made from such a node. -/
  | other
  deriving DecidableEq, Repr

/-- Nodes with this tag are collections. -/
def Tag.isCollection : Tag → Bool
  | .list | .map | .set | .pairs => true
  | _ => false

/-- The standard tag with a name; all else is other. -/
def Tag.ofName (name : String) : Tag :=
  match Text.after? "tag:yaml.org,2002:".toList name.toList with
  | none => .other
  | some short =>
    match String.ofList short with
    | "null" => .null
    | "bool" => .bool
    | "int" => .int
    | "float" => .float
    | "timestamp" => .timestamp
    | "str" => .text
    | "binary" => .binary
    | "value" => .value
    | "seq" => .list
    | "map" => .map
    | "set" => .set
    | "omap" => .pairs
    | "pairs" => .pairs
    | _ => .other

/-- Why a scalar has no value for its tag. -/
inductive ScalarFault
  | integer (base : Nat) (text : String) (fault : Number.IntegerFault)
  | real (text : String)
  | realTooLarge
  | truth (word : String)
  | emptyNumber
  | notTimestamp
  /-- A mapping that stands for a scalar, where only a scalar will do. -/
  | notText
  | calendar (fault : CalendarFault)
  deriving DecidableEq, Repr

/-- The wording of a fault. -/
def ScalarFault.message : ScalarFault → String
  | .integer base text fault => fault.message base text
  | .real text => Number.notReal text
  | .realTooLarge => Number.beyondDoubles
  | .truth word => Text.quoted word
  | .emptyNumber => "string index out of range"
  | .notTimestamp => "'NoneType' object has no attribute 'groupdict'"
  | .notText => "expected string or bytes-like object, got 'list'"
  | .calendar fault => fault.message

/-- The words for true and false, each in three spellings. -/
def truthWords : List String :=
  ["yes", "no", "true", "false", "on", "off"].flatMap fun w =>
    [w, w.capitalize, String.ofList (w.toList.map Char.toUpper)]

/-- The spellings of absence. -/
def nullWords : List String := ["", "~", "null", "Null", "NULL"]

/-- Only characters of a class, and at least one. -/
def isRun (p : Char → Bool) (cs : List Char) : Bool :=
  !cs.isEmpty && cs.all p

/-- A digit or an underscore. -/
def isDigitMark (c : Char) : Bool :=
  isAsciiDigit c || c == '_'

/-- A digit followed by digits and underscores. -/
def isNumeral (cs : List Char) : Bool :=
  cs.head?.any isAsciiDigit && cs.all isDigitMark

/-- One or two digits, of two the first below six. -/
def isSixtieth (cs : List Char) : Bool :=
  match cs with
  | [d] => isAsciiDigit d
  | [c, d] => '0' ≤ c && c ≤ '5' && isAsciiDigit d
  | _ => false

/-- A sign is passed over. -/
def unsigned (cs : List Char) : List Char :=
  (Number.splitSign cs).2

/-- An integer. -/
def isInteger (cs : List Char) : Bool :=
  let cs := unsigned cs
  match cs with
  | ['0'] => true
  | '0' :: 'b' :: r => isRun (fun c => c == '0' || c == '1' || c == '_') r
  | '0' :: 'x' :: r => isRun (fun c => (hexValue? c).isSome || c == '_') r
  | '0' :: r => isRun (fun c => ('0' ≤ c && c ≤ '7') || c == '_') r
  | _ =>
    match splitAtChar ':' cs with
    | first :: rest => isNumeral first && rest.all isSixtieth
    | [] => false

/-- An exponent with a sign, or nothing. -/
def isExponent (cs : List Char) : Bool :=
  match cs with
  | [] => true
  | e :: sign :: digits =>
    (e == 'e' || e == 'E') && (sign == '-' || sign == '+') && isRun isAsciiDigit digits
  | _ => false

/-- A double. -/
def isReal (cs : List Char) : Bool :=
  let magnitude := unsigned cs
  let whole := magnitude.takeWhile (· ≠ '.')
  let fraction := (magnitude.drop whole.length).drop 1
  let tail := fraction.dropWhile isDigitMark
  if whole.length = magnitude.length then false
  else
    match splitAtChar ':' whole with
    | [[]] =>
      [".inf", ".Inf", ".INF"].contains (String.ofList magnitude) ||
        [".nan", ".NaN", ".NAN"].contains (String.ofList cs) ||
        (cs.head? == some '.' && fraction.head?.any isAsciiDigit && isExponent tail)
    | [first] => isNumeral first && isExponent tail
    | first :: rest => isNumeral first && rest.all isSixtieth && tail.isEmpty
    | [] => false

/-- Digits in a number of places, and what follows them. -/
def fixedDigits? (least most : Nat) (cs : List Char) : Option (Nat × List Char) :=
  let digits := (cs.take most).takeWhile isAsciiDigit
  if digits.length < least then none
  else some (digits.foldl (fun n d => n * 10 + (d.toNat - '0'.toNat)) 0, cs.drop digits.length)

/-- What follows a character. -/
def afterChar? (c : Char) : List Char → Option (List Char)
  | [] => none
  | d :: r => if d = c then some r else none

/-- The numbers of a day or a moment, before the calendar is asked. -/
structure TimeParts where
  year : Nat
  month : Nat
  day : Nat
  /-- Hour, minute, second, microsecond, and minutes east of universal time. -/
  time : Option (Nat × Nat × Nat × Nat × Option Int)
  deriving Repr

/-- Six digits of a fraction of a second. -/
def microseconds (digits : List Char) : Nat :=
  let six := digits.take 6
  (six ++ List.replicate (6 - six.length) '0').foldl (fun n d => n * 10 + (d.toNat - '0'.toNat)) 0

/-- The distance from universal time at the end of a moment. -/
def zone? (cs : List Char) : Option (Option Int) :=
  match cs.dropWhile (fun c => c == ' ' || c == '\t') with
  | [] => if cs.isEmpty then some none else none
  | ['Z'] => some (some 0)
  | sign :: r =>
    if sign == '+' || sign == '-' then do
      let (hours, r) ← fixedDigits? 1 2 r
      let minutes ← match r with
        | [] => some 0
        | r => do
          let (minutes, r) ← fixedDigits? 2 2 (← afterChar? ':' r)
          if r.isEmpty then some minutes else none
      let distance : Int := hours * 60 + minutes
      return some (if sign = '-' then -distance else distance)
    else none

/-- The numbers of a day or a moment. -/
def timeParts? (cs : List Char) : Option TimeParts := do
  let (year, r) ← fixedDigits? 4 4 cs
  let (month, r) ← fixedDigits? 1 2 (← afterChar? '-' r)
  let (day, r) ← fixedDigits? 1 2 (← afterChar? '-' r)
  match r with
  | [] => return ⟨year, month, day, none⟩
  | c :: rest =>
    let r ←
      if c = 'T' || c = 't' then some rest
      else if c = ' ' || c = '\t' then some (rest.dropWhile fun c => c == ' ' || c == '\t')
      else none
    let (hour, r) ← fixedDigits? 1 2 r
    let (minute, r) ← fixedDigits? 2 2 (← afterChar? ':' r)
    let (second, r) ← fixedDigits? 2 2 (← afterChar? ':' r)
    let (fraction, r) := match r with
      | '.' :: r => (r.takeWhile isAsciiDigit, r.dropWhile isAsciiDigit)
      | r => ([], r)
    let zone ← zone? r
    return ⟨year, month, day, some (hour, minute, second, microseconds fraction, zone)⟩

/-- A day in ten characters, or a moment. -/
def isTimestamp (cs : List Char) : Bool :=
  match timeParts? cs with
  | some parts => parts.time.isSome || cs.length == 10
  | none => false

/-- A line feed at the end of a text does not change its form. -/
def withoutFinalBreak (cs : List Char) : List Char :=
  if cs.getLast? = some '\n' then cs.dropLast else cs

/-- What a scalar without quotes and tag is taken for. A lone line feed is a text. -/
def implicitTag (text : String) : Tag :=
  let cs := withoutFinalBreak text.toList
  let plain := String.ofList cs
  if truthWords.contains plain then .bool
  else if isReal cs then .float
  else if isInteger cs then .int
  else if plain = "=" then .value
  else if ["<<", "!", "&", "*"].contains plain then .other
  else if nullWords.contains plain && text != "\n" then .null
  else if isTimestamp cs then .timestamp
  else .text

/-- The integer that a text writes in a base. -/
def inBase (base : Nat) (cs : List Char) : Except ScalarFault Int :=
  (Number.readIntegerIn base cs).mapError (.integer base (String.ofList cs))

/-- A double in decimal. -/
def realOf (cs : List Char) : Except ScalarFault Float :=
  match Number.readFloat? cs with
  | some x => .ok x
  | none => .error (.real (String.ofList cs))

/-- The value of an integer without its sign. -/
def magnitudeOf (cs : List Char) : Except ScalarFault Int :=
  match cs with
  | [] => .error .emptyNumber
  | ['0'] => .ok 0
  | '0' :: 'b' :: r => inBase 2 r
  | '0' :: 'x' :: r => inBase 16 r
  | '0' :: _ => inBase 8 cs
  | _ =>
    if cs.contains ':' then do
      let digits ← (splitAtChar ':' cs).mapM (inBase 10)
      return digits.foldl (fun n d => n * 60 + d) 0
    else inBase 10 cs

/-- The value of an integer. -/
def integerOf (text : String) : Except ScalarFault Int :=
  let cs := text.toList.filter (· ≠ '_')
  if cs.isEmpty then .error .emptyNumber
  else do
    let n ← magnitudeOf (unsigned cs)
    return if cs.head? = some '-' then -n else n

/-- The double nearest to an integer. -/
def nearestOf (n : Int) : Except ScalarFault Float :=
  (Number.ofInt? n).elim (.error .realTooLarge) .ok

/-- The sum of digits in base sixty, added from the last to the first to what has been summed. -/
def sexagesimal (sum : Float) (power : Int) : List Float → Except ScalarFault Float
  | [] => .ok sum
  | d :: r => do sexagesimal (sum + d * (← nearestOf power)) (power * 60) r

/-- A double as it is written, in lower case and without underscores. -/
def spelledReal (text : String) : List Char :=
  Text.lower (text.toList.filter (· ≠ '_'))

/-- The word for the double that is no number. All its uses have one value between them. -/
def isNaNWord (text : String) : Bool :=
  unsigned (spelledReal text) = ".nan".toList

/-- The value of a double. -/
def doubleOf (text : String) : Except ScalarFault Float :=
  let cs := spelledReal text
  if cs.isEmpty then .error .emptyNumber
  else do
    let sign : Float := if cs.head? = some '-' then -1 else 1
    let magnitude := unsigned cs
    if magnitude = ".inf".toList then return sign * (1 / 0)
    else if magnitude = ".nan".toList then return 0 / 0
    else if magnitude.contains ':' then
      let digits ← (splitAtChar ':' magnitude).mapM realOf
      return sign * (← sexagesimal 0 1 digits.reverse)
    else return sign * (← realOf magnitude)

/-- The value of a truth word in any case. -/
def truthOf (text : String) : Except ScalarFault Bool :=
  let word := String.ofList (Text.lower text.toList)
  if word = "yes" ∨ word = "true" ∨ word = "on" then .ok true
  else if word = "no" ∨ word = "false" ∨ word = "off" then .ok false
  else .error (.truth word)

/-- The day or moment of a timestamp. -/
def timestampOf (text : String) : Except ScalarFault Scalar :=
  match timeParts? (withoutFinalBreak text.toList) with
  | none => .error .notTimestamp
  | some parts =>
    let made : Except CalendarFault Scalar :=
      match parts.time with
      | none => (Date.make parts.year parts.month parts.day).map .date
      | some (hour, minute, second, micro, zone) =>
        match zone with
        | some o =>
          if 1440 ≤ o.natAbs then .error (.offset o)
          else do
            let date ← Date.make parts.year parts.month parts.day
            return .moment (← Moment.make date hour minute second micro zone)
        | none => do
          let date ← Date.make parts.year parts.month parts.day
          return .moment (← Moment.make date hour minute second micro none)
    made.mapError .calendar

/-- The bytes of a text in base 64, which has to be ASCII. -/
def bytes? (text : String) : Option (List UInt8) :=
  if text.toList.all fun c => c.toNat < 128 then Text.Base64.decode? text.toList else none

/-- The value of a scalar with a tag; nothing for tags that are not for scalars, and for a text that
writes no bytes. -/
def scalarOf (tag : Tag) (text : String) : Option (Except ScalarFault Scalar) :=
  match tag with
  | .null => some (.ok .null)
  | .bool => some ((truthOf text).map .bool)
  | .int => some ((integerOf text).map .int)
  | .float => some ((doubleOf text).map .float)
  | .timestamp => some (timestampOf text)
  | .text => some (.ok (.text text))
  | .binary => (bytes? text).map fun b => .ok (.bytes b)
  | _ => none

end Drydock.Yaml
