import Drydock.Number.Power

set_option autoImplicit false
set_option relaxedAutoImplicit false

/-!
Double-precision numbers as integers: every finite one is `m · 2^q`, and every fraction has a
nearest double, a tie going to the even significand.
-/

namespace Drydock.Number

/-- A double taken apart. -/
inductive Parts
  | nan
  | infinite (negative : Bool)
  | finite (negative : Bool) (m : Nat) (q : Int)
  deriving DecidableEq, Repr

/-- The parts named by the 64 bits of a double. -/
def partsOfBits (bits : Nat) : Parts :=
  let negative := bits / twoTo 63 % 2 == 1
  let e : Nat := bits / twoTo 52 % 2048
  let f : Nat := bits % twoTo 52
  if e = 2047 then if f = 0 then .infinite negative else .nan
  else if e = 0 then .finite negative f (-1074)
  else .finite negative (twoTo 52 + f) ((e : Int) - 1075)

/-- The parts of a double. -/
def parts (x : Float) : Parts :=
  partsOfBits x.toBits.toNat

/-- A quotient rounded to the nearest integer, a tie to the even one. -/
def roundDiv (num den : Nat) : Nat :=
  let d := num / den
  let r := num % den
  if 2 * r < den then d
  else if den < 2 * r then d + 1
  else d + d % 2

/-- The quotient `num / (den · 2^q)`, rounded. -/
def roundScaled (num den : Nat) (q : Int) : Nat :=
  if 0 ≤ q then roundDiv num (den * twoTo q.toNat) else roundDiv (num * twoTo (-q).toNat) den

/-- A power of two at which `num / den` has at most 53 binary digits and, above the least exponent,
at least 53. -/
def exponentFor (num den : Nat) : Int :=
  let guess := (num.log2 : Int) - (den.log2 : Int) - 53
  let fits (q : Int) : Bool :=
    if 0 ≤ q then num < den * twoTo (53 + q.toNat) else num * twoTo (-q).toNat < den * twoTo 53
  max (-1074) (if fits guess then guess else guess + 1)

/-- The bits of positive infinity. -/
def infinityBits : Nat := 2047 * twoTo 52

/-- The bits of the double nearest to `num / den`, the sign apart. -/
def nearestBits (num den : Nat) : Nat :=
  if num = 0 then 0
  else
    let q := exponentFor num den
    min infinityBits ((q + 1074).toNat * twoTo 52 + roundScaled num den q)

/-- The double whose magnitude has the given bits. -/
def ofMagnitude (negative : Bool) (bits : Nat) : Float :=
  Float.ofBits (UInt64.ofNat ((if negative then twoTo 63 else 0) + bits))

/-- The double nearest to a signed fraction. -/
def nearest (negative : Bool) (num den : Nat) : Float :=
  ofMagnitude negative (nearestBits num den)

/-- The double nearest to an integer, unless it lies beyond the greatest finite one. -/
def ofInt? (n : Int) : Option Float :=
  let bits := nearestBits n.natAbs 1
  if bits < infinityBits then some (ofMagnitude (n < 0) bits) else none

/-- The integer that a double is exactly equal to. -/
def exactInt? (x : Float) : Option Int :=
  match parts x with
  | .finite negative m q =>
    let magnitude : Option Nat :=
      if 0 ≤ q then some (m * twoTo q.toNat)
      else if m % twoTo (-q).toNat = 0 then some (m / twoTo (-q).toNat) else none
    magnitude.map fun n => if negative then -(n : Int) else (n : Int)
  | _ => none

end Drydock.Number
