set_option autoImplicit false
set_option relaxedAutoImplicit false

/-!
Character classes given by closed ranges of code points.
-/

namespace Drydock.Text

/-- Closed ranges of code points, in increasing order. -/
abbrev RangeTable := List (Nat × Nat)

/-- Some range of the table holds the character. -/
def RangeTable.covers (table : RangeTable) (c : Char) : Bool :=
  table.any fun r => r.1 ≤ c.toNat && c.toNat ≤ r.2

end Drydock.Text
