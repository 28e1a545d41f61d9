import Drydock.Number.Binary64

set_option autoImplicit false
set_option relaxedAutoImplicit false

/-!
The fewest decimal digits that read back as a given double, and of those the nearest. The double
`m · 2^q` stands for an interval of reals, ends included when `m` is even; the value's neighbours on
the grids of one, two, … digits are tried in turn.
-/

namespace Drydock.Number

/-- A decimal `digits · 10^exponent`. -/
structure Decimal where
  digits : Nat
  exponent : Int
  deriving DecidableEq, Repr

/-- The ends of the reals that round to `m · 2^q`, and the value, in units of `2^(q-2)`. -/
structure Interval where
  low : Nat
  value : Nat
  high : Nat
  closed : Bool
  unit : Int

/-- The interval of a double. Below a power of two the gap is half as wide. -/
def Interval.of (m : Nat) (q : Int) : Interval :=
  let narrow := m = twoTo 52 && -1074 < q
  ⟨4 * m - (if narrow then 1 else 2), 4 * m, 4 * m + 2, m % 2 == 0, q - 2⟩

/-- The factors that bring `a · 2^unit` and `b · 10^e` to a common integer scale. -/
def commonScale (unit e : Int) : Nat × Nat :=
  (twoTo unit.toNat * tenTo (-e).toNat, twoTo (-unit).toNat * tenTo e.toNat)

/-- The decimal lies in the interval. -/
def Interval.holds (i : Interval) (d : Nat) (e : Int) : Bool :=
  let s := commonScale i.unit e
  let x := d * s.2
  if i.closed then i.low * s.1 ≤ x && x ≤ i.high * s.1 else i.low * s.1 < x && x < i.high * s.1

/-- The neighbour of the value on the grid of multiples of `10^e` that lies in the interval; of two
the nearer, and of two as near the even one. -/
def Interval.onGrid? (i : Interval) (e : Int) : Option Nat :=
  let s := commonScale i.unit e
  let below := i.value * s.1 / s.2
  let nearer := roundDiv (i.value * s.1) s.2
  let other := if nearer = below then below + 1 else below
  if i.holds nearer e then some nearer
  else if i.holds other e then some other
  else none

/-- The number of digits before the decimal point of `value · 2^unit`, zero or negative for a
number below a tenth. The search starts below the answer. -/
def Interval.magnitude (i : Interval) : Int :=
  let bits : Int := (i.value.log2 : Int) + i.unit
  let start : Int := bits * 3 / 10 - 3
  let reaches (k : Int) : Bool :=
    let s := commonScale i.unit k
    i.value * s.1 < s.2
  ((List.range 64).map fun (j : Nat) => start + (j : Int)).find? reaches |>.getD start

/-- Tries the grids of `17 - fuel`, … digits. -/
def Interval.search (i : Interval) (k : Int) : Nat → Decimal
  | 0 => ⟨i.value, i.unit⟩
  | fuel + 1 =>
    let e := k - ((17 - fuel : Nat) : Int)
    match i.onGrid? e with
    | some d => ⟨d, e⟩
    | none => i.search k fuel

/-- Trailing zeros moved into the exponent. -/
def Decimal.reduce : Nat → Decimal → Decimal
  | 0, d => d
  | fuel + 1, d =>
    if d.digits ≠ 0 ∧ d.digits % 10 = 0 then reduce fuel ⟨d.digits / 10, d.exponent + 1⟩ else d

/-- The shortest decimal that reads back as `m · 2^q`. -/
def shortest (m : Nat) (q : Int) : Decimal :=
  let i := Interval.of m q
  (i.search i.magnitude 17).reduce 20

end Drydock.Number
