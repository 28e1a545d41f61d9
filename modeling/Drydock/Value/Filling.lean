import Drydock.Number.Refusal
import Drydock.Number.Scientific
import Drydock.Value.Text

set_option autoImplicit false
set_option relaxedAutoImplicit false

/-!
Texts with directives that values are put into. A directive is a percent sign, perhaps a key in
parentheses, flags, a width, a precision, and the letter of a conversion. Keys look into a map; the
other directives share one value, which is used once.
-/

namespace Drydock

/-- Why a text cannot be filled. -/
inductive FillFault
  | tooFew | leftOver | noMapping | listKey
  | noKey (key : String)
  | incomplete | incompleteKey
  | notWidth
  | notNumber (conversion : Char) (kind : String)
  | notInteger (conversion : Char) (kind : String)
  | notReal (kind : String)
  | notCharacter | noSuchCharacter
  | integerTooLarge | infinite | notANumber
  | unknown (conversion : Char) (index : Nat)
  deriving DecidableEq, Repr

/-- A number in hexadecimal, without leading zeros. -/
def hexadecimal (n : Nat) : String :=
  String.ofList (Nat.toDigits 16 n)

/-- The wording of a fault. -/
def FillFault.message : FillFault → String
  | .tooFew => "not enough arguments for format string"
  | .leftOver => "not all arguments converted during string formatting"
  | .noMapping => "format requires a mapping"
  | .listKey => "list indices must be integers or slices, not str"
  | .noKey key => Text.quoted key
  | .incomplete => "incomplete format"
  | .incompleteKey => "incomplete format key"
  | .notWidth => "* wants int"
  | .notNumber c kind => s!"%{c} format: a real number is required, not {kind}"
  | .notInteger c kind => s!"%{c} format: an integer is required, not {kind}"
  | .notReal kind => s!"must be real number, not {kind}"
  | .notCharacter => "%c requires int or char"
  | .noSuchCharacter => "%c arg not in range(0x110000)"
  | .integerTooLarge => Number.beyondDoubles
  | .infinite => "cannot convert float infinity to integer"
  | .notANumber => "cannot convert float NaN to integer"
  | .unknown c index =>
    let shown := if 31 ≤ c.toNat ∧ c.toNat < 126 then c else '?'
    let code := hexadecimal c.toNat
    s!"unsupported format character '{shown}' (0x{code}) at index {index}"

namespace Filling

/-- What stands between a percent sign and the letter of a conversion, keys apart. -/
structure Spec where
  left : Bool
  plus : Bool
  blank : Bool
  marked : Bool
  zeros : Bool
  width : Nat
  precision : Option Nat

/-- Nothing but a letter. -/
def Spec.bare : Spec := ⟨false, false, false, false, false, 0, none⟩

/-- The text that is left, how much of it has been read, and the value that has not been used. -/
structure State where
  rest : List Char
  index : Nat
  value : Option Value

/-- Reads a number of characters. -/
def State.skip (s : State) (n : Nat) : State :=
  { s with rest := s.rest.drop n, index := s.index + n }

/-- The value, which is used up. -/
def State.take (s : State) : Except FillFault (Value × State) :=
  match s.value with
  | some v => .ok (v, { s with value := none })
  | none => .error .tooFew

/-- The characters up to the closing parenthesis; the count is of the open ones. -/
def keyIn : Nat → List Char → Option (List Char)
  | _, [] => none
  | depth, c :: r =>
    if c = ')' then (if depth = 0 then some [] else (keyIn (depth - 1) r).map (c :: ·))
    else (keyIn (if c = '(' then depth + 1 else depth) r).map (c :: ·)

/-- Reads a key, and takes the value under it as the one to use. -/
def readKey (whole : Value) (s : State) : Except FillFault State :=
  match s.rest with
  | '(' :: r =>
    match whole with
    | .map entries =>
      match keyIn 0 r with
      | none => .error .incompleteKey
      | some key =>
        match Value.field? (String.ofList key) entries with
        | some v => .ok { s.skip (key.length + 2) with value := some v }
        | none => .error (.noKey (String.ofList key))
    | .list _ => if (keyIn 0 r).isSome then .error .listKey else .error .incompleteKey
    | _ => .error .noMapping
  | _ => .ok s

/-- The spec with one more flag, if a character is one. -/
def Spec.flag? (spec : Spec) : Char → Option Spec
  | '-' => some { spec with left := true }
  | '+' => some { spec with plus := true }
  | ' ' => some { spec with blank := true }
  | '#' => some { spec with marked := true }
  | '0' => some { spec with zeros := true }
  | _ => none

/-- The flags at the start of a text, and their number. -/
def flags (spec : Spec) : List Char → Spec × Nat
  | [] => (spec, 0)
  | c :: r =>
    match spec.flag? c with
    | some spec => let more := flags spec r; (more.1, more.2 + 1)
    | none => (spec, 0)

/-- A number, or a star for one that is used up as a value. -/
def readCount (s : State) : Except FillFault (Option Int × State) :=
  match s.rest with
  | '*' :: _ => do
    let (v, s) ← (s.skip 1).take
    match v.whole? with
    | some n => return (some n, s)
    | none => .error .notWidth
  | cs =>
    let digits := cs.takeWhile Char.isDigit
    let n := digits.foldl (fun n d => n * 10 + (d.toNat - '0'.toNat)) 0
    .ok (if digits = [] then none else some (n : Int), s.skip digits.length)

/-- Reads what stands before the letter of a conversion. -/
def readSpec (s : State) : Except FillFault (Spec × State) := do
  let (spec, n) := flags .bare s.rest
  let (width, s) ← readCount (s.skip n)
  let width := width.getD 0
  let spec := { spec with width := width.natAbs, left := spec.left || width < 0 }
  let (precision, s) ←
    match s.rest with
    | '.' :: _ => do
      let (n, s) ← readCount (s.skip 1)
      pure (some (n.getD 0).toNat, s)
    | _ => pure (none, s)
  let s := if (s.rest.head?).any (['h', 'l', 'L'].contains ·) then s.skip 1 else s
  return ({ spec with precision := precision }, s)

/-- A text in a field of some width. -/
def Spec.pad (spec : Spec) (text : String) : String :=
  let blanks := String.ofList (List.replicate (spec.width - text.length) ' ')
  if spec.left then text ++ blanks else blanks ++ text

/-- A number in a field of some width: zeros stand behind the sign and the mark of the base. -/
def Spec.padNumber (spec : Spec) (mark text : String) : String :=
  let negative := text.toList.head? = some '-'
  let body := if negative then text.toList.drop 1 else text.toList
  let sign := if negative then "-" else if spec.plus then "+" else if spec.blank then " " else ""
  let front := sign ++ mark
  let zeros := if spec.zeros && !spec.left then spec.width - (front.length + body.length) else 0
  spec.pad (front ++ String.ofList (List.replicate zeros '0' ++ body))

/-- A text that ends after as many characters as the precision says. -/
def Spec.padText (spec : Spec) (text : String) : String :=
  spec.pad ((spec.precision.map fun n => String.ofList (text.toList.take n)).getD text)

/-- An integer in a base, with as many digits as the precision says at least. -/
def Spec.integer (spec : Spec) (base : Nat) (mark : String) (n : Int) : String :=
  let digits := Nat.toDigits base n.natAbs
  let zeros := List.replicate (spec.precision.getD 0 - digits.length) '0'
  spec.padNumber (if spec.marked then mark else "")
    ((if n < 0 then "-" else "") ++ String.ofList (zeros ++ digits))

/-- The whole part of a number. -/
def truncated (conversion : Char) (v : Value) : Except FillFault Int :=
  match v, v.whole? with
  | .float x, _ =>
    match Number.parts x with
    | .nan => .error .notANumber
    | .infinite _ => .error .infinite
    | .finite negative m q =>
      let n : Int := if 0 ≤ q then m * Number.twoTo q.toNat else (m / Number.twoTo (-q).toNat : Nat)
      .ok (if negative then -n else n)
  | _, some n => .ok n
  | v, none => .error (.notNumber conversion v.kindName)

/-- A whole number for a conversion that admits no fraction. -/
def integral (conversion : Char) (v : Value) : Except FillFault Int :=
  v.whole?.elim (.error (.notInteger conversion v.kindName)) .ok

/-- A number as a double. -/
def real (v : Value) : Except FillFault Float :=
  match v, v.whole? with
  | .float x, _ => .ok x
  | _, some n => (Number.ofInt? n).elim (.error .integerTooLarge) .ok
  | v, none => .error (.notReal v.kindName)

/-- The character that a value is or that it numbers. -/
def character (v : Value) : Except FillFault String :=
  match v, v.whole? with
  | .text s, _ => if s.length = 1 then .ok s else .error .notCharacter
  | _, some n =>
    if 0 ≤ n ∧ n < 0x110000 then .ok (Char.ofNat n.toNat).toString else .error .noSuchCharacter
  | _, none => .error .notCharacter

/-- A text in ASCII: other characters become escapes. -/
def inAscii (text : String) : String :=
  String.ofList (text.toList.flatMap fun c =>
    if c.toNat < 128 then [c]
    else if c.toNat < 0x100 then '\\' :: 'x' :: Text.hexDigits 2 c.toNat
    else if c.toNat < 0x10000 then '\\' :: 'u' :: Text.hexDigits 4 c.toNat
    else '\\' :: 'U' :: Text.hexDigits 8 c.toNat)

/-- Capitals for the letters of a number. -/
def capital (text : String) : String :=
  text.map Char.toUpper

/-- A value as a conversion writes it; `index` is the place of the letter. -/
def convert (spec : Spec) (index : Nat) (conversion : Char) (v : Value) :
    Except FillFault String :=
  let places := spec.precision.getD 6
  match conversion with
  | 's' => .ok (spec.padText v.alone)
  | 'r' => .ok (spec.padText v.nested)
  | 'a' => .ok (spec.padText (inAscii v.nested))
  | 'c' => (character v).map spec.pad
  | 'd' | 'i' | 'u' => (truncated conversion v).map (spec.integer 10 "")
  | 'o' => (integral conversion v).map (spec.integer 8 "0o")
  | 'x' => (integral conversion v).map (spec.integer 16 "0x")
  | 'X' => (integral conversion v).map fun n => capital (spec.integer 16 "0x" n)
  | 'f' => (real v).map fun x => spec.padNumber "" (Number.fixed places x)
  | 'F' => (real v).map fun x => spec.padNumber "" (capital (Number.fixed places x))
  | 'e' => (real v).map fun x => spec.padNumber "" (Number.scientific places x)
  | 'E' => (real v).map fun x => spec.padNumber "" (capital (Number.scientific places x))
  | 'g' => (real v).map fun x => spec.padNumber "" (Number.general places x)
  | 'G' => (real v).map fun x => spec.padNumber "" (capital (Number.general places x))
  | c => .error (.unknown c index)

/-- What a directive becomes, from behind its percent sign on. -/
def directive (whole : Value) (s : State) : Except FillFault (String × State) := do
  match s.rest with
  | [] => .error .incomplete
  | '%' :: _ => return ("%", s.skip 1)
  | _ =>
    let (spec, s) ← readSpec (← readKey whole s)
    match s.rest with
    | [] => .error .incomplete
    | c :: _ =>
      let (v, s) ← s.take
      return (← convert spec s.index c v, s.skip 1)

/-- Fills what is left of a text, whose length bounds the directives. -/
def fillFrom (whole : Value) : Nat → State → Except FillFault (String × State)
  | 0, s => .ok ("", s)
  | fuel + 1, s =>
    match s.rest with
    | [] => .ok ("", s)
    | '%' :: _ => do
      let (text, s) ← directive whole (s.skip 1)
      let (more, s) ← fillFrom whole fuel s
      return (text ++ more, s)
    | c :: _ => do
      let (more, s) ← fillFrom whole fuel (s.skip 1)
      return (c.toString ++ more, s)

/-- A value need not be used where it can be looked into. -/
def isOptional : Value → Bool
  | .map _ | .list _ => true
  | _ => false

end Filling

/-- A text filled with a value. -/
def fill (text : String) (v : Value) : Except FillFault String := do
  let (filled, s) ← Filling.fillFrom v (text.length + 1) ⟨text.toList, 0, some v⟩
  if s.value.isSome && !Filling.isOptional v then .error .leftOver else return filled

end Drydock
