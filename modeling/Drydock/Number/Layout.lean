import Drydock.Number.Shortest

set_option autoImplicit false
set_option relaxedAutoImplicit false

/-!
How numbers are written. A double shows its shortest digits, positionally between two exponents and
otherwise with a power of ten; a count of places shows a fixed number of decimals.
-/

namespace Drydock.Number

/-- The choices a written double leaves open. -/
structure Layout where
  /-- The point stands at most this many places left of the first digit in positional form. -/
  leftmost : Int
  /-- The point stands at most this many places right of the first digit in positional form. -/
  rightmost : Int
  /-- The fewest digits of an exponent. -/
  exponentWidth : Nat
  nan : String
  infinity : String

/-- Positional from `0.0001` to below `10^16`, a fraction digit always shown, exponents signed and
of two digits. -/
def plain : Layout := ⟨-3, 16, 2, "nan", "inf"⟩

/-- A number in decimal, with leading zeros up to a width. -/
def padded (width n : Nat) : String :=
  let t := toString n
  String.ofList (List.replicate (width - t.length) '0') ++ t

/-- Digits with the point after the first `point` of them. -/
def pointed (digits : List Char) (point : Int) : List Char :=
  if point ≤ 0 then '0' :: '.' :: (List.replicate (-point).toNat '0' ++ digits)
  else
    let k := point.toNat
    if digits.length ≤ k then digits ++ List.replicate (k - digits.length) '0' ++ ['.', '0']
    else digits.take k ++ '.' :: digits.drop k

/-- A decimal number in a layout. -/
def Layout.decimal (l : Layout) (d : Decimal) : String :=
  if d.digits = 0 then "0.0"
  else
    let digits := (toString d.digits).toList
    let point : Int := digits.length + d.exponent
    if l.leftmost ≤ point && point ≤ l.rightmost then String.ofList (pointed digits point)
    else
      let fraction := if digits.length = 1 then [] else '.' :: digits.drop 1
      let e := point - 1
      String.ofList (digits.take 1 ++ fraction ++ 'e' :: (if e < 0 then '-' else '+') ::
        (padded l.exponentWidth e.natAbs).toList)

/-- A double in a layout. -/
def Layout.text (l : Layout) (x : Float) : String :=
  match parts x with
  | .nan => l.nan
  | .infinite negative => (if negative then "-" else "") ++ l.infinity
  | .finite negative m q =>
    (if negative then "-" else "") ++ l.decimal (if m = 0 then ⟨0, 0⟩ else shortest m q)

/-- A double with a fixed number of decimals; exact ties go to the even digit. -/
def fixed (places : Nat) (x : Float) : String :=
  match parts x with
  | .nan => "nan"
  | .infinite negative => if negative then "-inf" else "inf"
  | .finite negative m q =>
    let scaled := roundScaled (m * tenTo places) 1 (-q)
    let whole := toString (scaled / tenTo places)
    let fraction := if places = 0 then "" else "." ++ padded places (scaled % tenTo places)
    (if negative then "-" else "") ++ whole ++ fraction

end Drydock.Number
