import Drydock.Number.Integer

set_option autoImplicit false
set_option relaxedAutoImplicit false

/-!
Integers in the texts of lenient fields. The plain form is a minus sign or none and digits without
leading zeros; other spellings are brought to it first: blanks around, a plus sign, leading zeros, a
fraction of zeros, and single underscores between digits.
-/

namespace Drydock.Number

open Text

/-- The integer in plain form. -/
def plainInteger? (cs : List Char) : Option Int :=
  let digits := match cs with | '-' :: r => r | cs => cs
  if cs.length ≤ mostDigits ∧ digits ≠ [] ∧ digits.all isAsciiDigit ∧
      (digits.head? ≠ some '0' ∨ digits.length = 1) then
    (readInteger cs).toOption
  else none

/-- A text without its plus sign, behind which no minus sign may stand. -/
def withoutPlus : List Char → Option (List Char)
  | '+' :: '-' :: _ => none
  | '+' :: r => some r
  | cs => some cs

/-- What follows the zeros and underscores at the start of a number; the last of them stays where
nothing, or only a fraction, follows. -/
def afterZeros (last : Char) : List Char → Option (List Char)
  | [] => some [last]
  | c :: r =>
    if c = '0' ∨ c = '_' then afterZeros c r
    else if c = '.' then some (last :: c :: r)
    else if c = '-' ∨ isAsciiDigit c then some (c :: r)
    else none

/-- A text without leading zeros. -/
def withoutZeros : List Char → Option (List Char)
  | [] => none
  | c :: r =>
    if c = '0' then afterZeros c r
    else if c = '-' ∨ isAsciiDigit c then some (c :: r)
    else none

/-- A text without a fraction of zeros. -/
def withoutFraction (cs : List Char) : List Char :=
  match cutAt? ['.'] cs with
  | some (whole, zeros) => if zeros ≠ [] ∧ zeros.all (· = '0') then whole else cs
  | none => cs

/-- A text without the underscores that stand between two other characters. -/
def withoutUnderscores (cs : List Char) : List Char :=
  if joinsDigits cs then cs.filter (· ≠ '_') else cs

/-- The integer that the text of a lenient field writes. -/
def lenientInteger? (cs : List Char) : Option Int :=
  match plainInteger? cs with
  | some n => some n
  | none => do
    let body ← withoutZeros (← withoutPlus (trimNumber cs))
    plainInteger? (withoutUnderscores (withoutFraction body))

end Drydock.Number
