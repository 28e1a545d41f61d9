set_option autoImplicit false
set_option relaxedAutoImplicit false

/-!
Texts in the order of their code points.
-/

namespace Drydock.Text

/-- The texts in increasing order. -/
def sorted (texts : List String) : List String :=
  texts.mergeSort fun a b => !decide (b < a)

/-- The distinct texts in increasing order. -/
def sortedDistinct (texts : List String) : List String :=
  (sorted texts).eraseReps

theorem sorted_perm (texts : List String) : (sorted texts).Perm texts :=
  List.mergeSort_perm texts _

end Drydock.Text
