import Drydock.Number.Reading
import Drydock.Text.Search

set_option autoImplicit false
set_option relaxedAutoImplicit false

/-!
Integers as people type them: blanks around, a sign, the mark of the base, digits of any script, and
single underscores between digits. In decimal the number of digits is bounded, both when an integer
is read and when it is written.
-/

namespace Drydock.Number

open Text

/-- The most digits of an integer in decimal. -/
def mostDigits : Nat := 4300

/-- The least magnitude that has too many digits. -/
def tooGreat : Nat := tenTo mostDigits

/-- An integer can be written in decimal. -/
def isWritable (n : Int) : Bool :=
  n.natAbs < tooGreat

/-- Why a text writes no integer. -/
inductive IntegerFault
  | malformed
  | tooLong (digits : Nat)
  deriving DecidableEq, Repr

/-- A digit of any script as an ASCII digit; other characters stay. -/
def asciiDigit (c : Char) : Char :=
  ((digitValue? c).map fun d => Char.ofNat ('0'.toNat + d)).getD c

/-- The value of an ASCII digit or letter as a digit of a base up to sixteen. -/
def digitIn? (base : Nat) (c : Char) : Option Nat :=
  let value :=
    if isAsciiDigit c then some (c.toNat - '0'.toNat)
    else if 'a' ≤ c && c ≤ 'f' then some (c.toNat - 'a'.toNat + 10)
    else if 'A' ≤ c && c ≤ 'F' then some (c.toNat - 'A'.toNat + 10)
    else none
  value.filter (· < base)

/-- The letter that marks a base behind a zero. -/
def baseLetter? : Nat → Option Char
  | 2 => some 'b'
  | 8 => some 'o'
  | 16 => some 'x'
  | _ => none

/-- What follows the mark of a base. One underscore may stand between the mark and the digits. -/
def afterBaseMark (base : Nat) : List Char → List Char
  | '0' :: c :: r =>
    if baseLetter? base = some c.toLower then (match r with | '_' :: r => r | r => r)
    else '0' :: c :: r
  | cs => cs

/-- Every underscore stands between two characters that are none. -/
def joinsDigits (run : List Char) : Bool :=
  run.head? != some '_' && run.getLast? != some '_' && !occursIn ['_', '_'] run

/-- The integer that a text writes in a base up to sixteen. An underscore out of place is found
before a number that is too long, and that before whatever follows the digits. -/
def readIntegerIn (base : Nat) (cs : List Char) : Except IntegerFault Int :=
  let signed := splitSign (trimNumber (cs.map asciiDigit))
  let body := afterBaseMark base signed.2
  let run := body.takeWhile fun c => c == '_' || (digitIn? base c).isSome
  let digits := run.filterMap (digitIn? base)
  if !joinsDigits run then .error .malformed
  else if base = 10 ∧ mostDigits < digits.length then .error (.tooLong digits.length)
  else if digits = [] ∨ run.length < body.length then .error .malformed
  else
    let n : Int := ofDigits base digits
    .ok (if signed.1 then -n else n)

/-- The integer that a text writes in decimal. -/
def readInteger (cs : List Char) : Except IntegerFault Int :=
  readIntegerIn 10 cs

end Drydock.Number
