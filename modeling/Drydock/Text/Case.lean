set_option autoImplicit false
set_option relaxedAutoImplicit false

/-!
Runs of letters that differ from their other case by one distance.
-/

namespace Drydock.Text

/-- Every `step`-th code point from `first` to `last` has its other case at the same distance, that
of the first one at `target`. -/
structure CaseRun where
  first : Nat
  last : Nat
  step : Nat
  target : Nat

/-- The other case of a character, if some run holds the character. -/
def otherCase? (runs : List CaseRun) (c : Char) : Option Char :=
  (runs.find? fun r =>
    r.first ≤ c.toNat && c.toNat ≤ r.last && (c.toNat - r.first) % r.step == 0).map fun r =>
      Char.ofNat (r.target + (c.toNat - r.first))

end Drydock.Text
