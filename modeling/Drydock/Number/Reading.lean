import Drydock.Number.Binary64
import Drydock.Text.Blank
import Drydock.Text.Digit

set_option autoImplicit false
set_option relaxedAutoImplicit false

/-!
Real numbers as people type them: blanks around, a sign, digits of any script, single underscores
between digits, a point, an exponent, or one of the words for infinity and for no number.
-/

namespace Drydock.Number

open Text

/-- White space around a number; the four information separators do not count. -/
def isNumberBlank (c : Char) : Bool :=
  isBlank c && !(28 ≤ c.toNat && c.toNat ≤ 31)

/-- A number's text without the blanks around it. -/
def trimNumber (cs : List Char) : List Char :=
  ((cs.dropWhile isNumberBlank).reverse.dropWhile isNumberBlank).reverse

/-- A sign, and what follows it. -/
def splitSign : List Char → Bool × List Char
  | '-' :: r => (true, r)
  | '+' :: r => (false, r)
  | cs => (false, cs)

/-- The digits at the start of a text, and what follows them. An underscore between two digits is
passed over. -/
def digitRun (afterDigit : Bool) : List Char → List Nat × List Char
  | [] => ([], [])
  | c :: r =>
    match digitValue? c with
    | some d => let run := digitRun true r; (d :: run.1, run.2)
    | none =>
      if c = '_' && afterDigit && (r.head?.bind digitValue?).isSome then digitRun false r
      else ([], c :: r)

/-- The number that digits write in a base. -/
def ofDigits (base : Nat) (ds : List Nat) : Nat :=
  ds.foldl (fun n d => n * base + d) 0

/-- The double nearest to `± n · 10^e`. Far beyond the range no power of ten is computed. -/
def ofDecimal (negative : Bool) (n : Nat) (e : Int) : Float :=
  let size : Int := (toString n).length + e
  if n = 0 ∨ size < -400 then ofMagnitude negative 0
  else if 400 < size then ofMagnitude negative infinityBits
  else nearest negative (n * tenTo e.toNat) (tenTo (-e).toNat)

/-- The exponent at the end of a number. -/
def readExponent? : List Char → Option Int
  | [] => some 0
  | c :: r =>
    if c = 'e' ∨ c = 'E' then
      let signed := splitSign r
      let run := digitRun false signed.2
      if run.1 ≠ [] ∧ run.2 = [] then
        let n : Int := ofDigits 10 run.1
        some (if signed.1 then -n else n)
      else none
    else none

/-- A number without sign in positional or exponent notation. -/
def readMagnitude? (negative : Bool) (cs : List Char) : Option Float :=
  let whole := digitRun false cs
  let fraction :=
    match whole.2 with
    | '.' :: r => digitRun false r
    | r => ([], r)
  if whole.1 = [] ∧ fraction.1 = [] then none
  else (readExponent? fraction.2).map fun e =>
    ofDecimal negative (ofDigits 10 (whole.1 ++ fraction.1)) (e - fraction.1.length)

/-- The double that a text writes. -/
def readFloat? (cs : List Char) : Option Float :=
  let signed := splitSign (trimNumber cs)
  let word := signed.2.map Char.toLower
  if word = "inf".toList ∨ word = "infinity".toList then
    some (ofMagnitude signed.1 infinityBits)
  else if word = "nan".toList then some (ofMagnitude signed.1 (infinityBits + twoTo 51))
  else readMagnitude? signed.1 signed.2

end Drydock.Number
