import Drydock.Number.Layout

set_option autoImplicit false
set_option relaxedAutoImplicit false

/-!
Doubles with a chosen number of digits: one digit before the point and a power of ten, or the
shorter of that and the positional form.
-/

namespace Drydock.Number

/-- A magnitude `m · 2^q` rounded to `places + 1` digits, and the exponent of the first of them. -/
def significant (places m : Nat) (q : Int) : Nat × Int :=
  if m = 0 then (0, 0)
  else
    let first := (Interval.of m q).magnitude - 1
    let shift : Int := places - first
    let digits := roundScaled (m * tenTo shift.toNat) (tenTo (-shift).toNat) (-q)
    if digits = tenTo (places + 1) then (digits / 10, first + 1) else (digits, first)

/-- Digits with the point behind the first one, and a power of ten. -/
def scientificText (places : Nat) (digits : Nat) (exponent : Int) : String :=
  let cs := (toString digits).toList
  let cs := List.replicate (places + 1 - cs.length) '0' ++ cs
  let fraction := if places = 0 then [] else '.' :: cs.drop 1
  String.ofList (cs.take 1 ++ fraction ++ 'e' :: (if exponent < 0 then '-' else '+') ::
    (padded 2 exponent.natAbs).toList)

/-- A text in front of its sign, and what the form of a finite magnitude is. -/
def signedText (x : Float) (form : Nat → Int → String) : String :=
  match parts x with
  | .nan => "nan"
  | .infinite negative => if negative then "-inf" else "inf"
  | .finite negative m q => (if negative then "-" else "") ++ form m q

/-- A double with one digit before the point, a number of them behind it, and a power of ten. -/
def scientific (places : Nat) (x : Float) : String :=
  signedText x fun m q =>
    let r := significant places m q
    scientificText places r.1 r.2

/-- A decimal fraction without its trailing zeros, and without the point if nothing is left. -/
def withoutTrailingZeros (text : String) : String :=
  let cs := text.toList
  if cs.contains '.' then
    let mantissa := cs.takeWhile (· ≠ 'e')
    let kept := (mantissa.reverse.dropWhile (· = '0')).dropWhile (· = '.')
    String.ofList (kept.reverse ++ cs.drop mantissa.length)
  else text

/-- A double with at most a number of digits: positional if its exponent is from -4 to below that
number. -/
def general (digits : Nat) (x : Float) : String :=
  let places := max digits 1 - 1
  signedText x fun m q =>
    let r := significant places m q
    if -4 ≤ r.2 ∧ r.2 ≤ (places : Int) then
      withoutTrailingZeros (fixed ((places : Int) - r.2).toNat (Float.abs x))
    else withoutTrailingZeros (scientificText places r.1 r.2)

end Drydock.Number
