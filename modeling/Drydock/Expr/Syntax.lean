import Drydock.Expr.Token
import Drydock.Value.Basic

set_option autoImplicit false
set_option relaxedAutoImplicit false

/-!
Conditions as trees.
-/

namespace Drydock.Expr

/-- A condition. -/
inductive Tree
  | literal (value : Value)
  | path (name : String)
  | not (operand : Tree)
  | binary (op : Operator) (left right : Tree)
  | call (name : String) (args : List Tree)
  deriving Repr

instance : Inhabited Tree := ⟨.literal .null⟩

end Drydock.Expr
