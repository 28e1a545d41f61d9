import Drydock.Expr.Coercion
import Drydock.Expr.Token
import Drydock.Text.Search

set_option autoImplicit false
set_option relaxedAutoImplicit false

/-!
The functions and operators of conditions. A call checks the name, then the number of arguments;
what is left to do cannot fail.
-/

namespace Drydock.Expr

open Text (after? occursIn replaceAll)

/-- The functions. -/
inductive Builtin
  | contains | startsWith | endsWith | format | join | always | success | failure | cancelled
  deriving DecidableEq, Repr

namespace Builtin

/-- The name of a function. -/
def name : Builtin → String
  | contains => "contains"
  | startsWith => "startsWith"
  | endsWith => "endsWith"
  | format => "format"
  | join => "join"
  | always => "always"
  | success => "success"
  | failure => "failure"
  | cancelled => "cancelled"

/-- All functions. -/
def all : List Builtin :=
  [contains, startsWith, endsWith, format, join, always, success, failure, cancelled]

/-- The function of a name. -/
def ofName? (s : String) : Option Builtin :=
  all.find? fun f => f.name == s

/-- How many arguments a function takes. -/
def arity : Builtin → Arity
  | contains | startsWith | endsWith => ⟨2, some 2⟩
  | format => ⟨1, none⟩
  | join => ⟨1, some 2⟩
  | always | success | failure | cancelled => ⟨0, none⟩

end Builtin

/-- The mark that stands for an argument in a format. -/
def placeholder (i : Nat) : List Char :=
  '\x7b' :: (toString i).toList ++ ['\x7d']

/-- Replaces the marks from a number on, one argument after another. -/
def fillPlaceholders (i : Nat) (format : List Char) : List Value → List Char
  | [] => format
  | v :: r => fillPlaceholders (i + 1) (replaceAll (placeholder i) (asText v).toList format) r

/-- The texts of the items of a list with a separator between them; anything else as text. -/
def joined (separator : String) : Value → String
  | .list items => separator.intercalate (items.map asText)
  | v => asText v

/-- The value of a function at arguments of an admitted number. -/
def Builtin.apply (f : Builtin) (args : List Value) : Value :=
  match f, args with
  | .contains, [a, b] => .bool (occursIn (asText b).toList (asText a).toList)
  | .startsWith, [a, b] => .bool (after? (asText b).toList (asText a).toList).isSome
  | .endsWith, [a, b] =>
    .bool (after? (asText b).toList.reverse (asText a).toList.reverse).isSome
  | .format, a :: r => .text (String.ofList (fillPlaceholders 0 (asText a).toList r))
  | .join, [a] => .text (joined "," a)
  | .join, [a, b] => .text (joined (asText b) a)
  | .always, _ | .success, _ => .bool true
  | .failure, _ | .cancelled, _ => .bool false
  | _, _ => .null

/-- The value of a call. -/
def call (name : String) (args : List Value) : Except CallFault Value :=
  match Builtin.ofName? name with
  | none => .error (.unknownFunction name)
  | some f =>
    if f.arity.admits args.length then .ok (f.apply args)
    else .error (.arity name f.arity args.length)

/-- Compares two values by size. -/
def compare (holds : Float → Float → Bool) (left right : Value) : Except EvalFault Bool := do
  let x ← asFloat left
  let y ← asFloat right
  return holds x y

/-- The value of an operator. -/
def Operator.apply (op : Operator) (left right : Value) : Except EvalFault Bool :=
  match op with
  | .eq => .ok (asText left == asText right)
  | .ne => .ok (asText left != asText right)
  | .and => .ok (asBool left && asBool right)
  | .or => .ok (asBool left || asBool right)
  | .lt => compare (fun x y => x < y) left right
  | .gt => compare (fun x y => x > y) left right
  | .le => compare (fun x y => x ≤ y) left right
  | .ge => compare (fun x y => x ≥ y) left right

/-- The value of the operator with a symbol. -/
def applySymbol (symbol : String) (left right : Value) : Except EvalFault Bool :=
  match Operator.ofSymbol? symbol with
  | some op => op.apply left right
  | none => .error (.call (.unknownOperator symbol))

end Drydock.Expr
