import Drydock.Expr.Builtin
import Drydock.Expr.Parser

set_option autoImplicit false
set_option relaxedAutoImplicit false

/-!
The value and the trace of a condition. Both operands of an operator and all arguments of a call are
evaluated, from left to right; a path that is not found counts as absent. What a path leads to is
written into the trace, which an integer with too many digits cannot be.
-/

namespace Drydock.Expr

open Text (after? strip trim)

/-- A value and how it came about. -/
structure Outcome where
  value : Value
  trace : String
  deriving Repr

/-- The outcome of a step whose parts are traced by `parts`. -/
def Outcome.of (parts : String) (value : Value) : Outcome :=
  ⟨value, parts ++ " -> " ++ inTrace value⟩

/-- The outcome of a tree where `lookup` answers for paths, with a budget for nesting. -/
def eval (lookup : String → Option Value) : Nat → Tree → Except EvalFault Outcome
  | 0, _ => .error .nestedTooDeeply
  | _ + 1, .literal v => .ok ⟨v, inTrace v⟩
  | _ + 1, .path name =>
    let v := (lookup name).getD .null
    if v.isWritable then .ok (.of name v) else .error .integerTooLong
  | n + 1, .not operand => do
    let x ← eval lookup n operand
    return .of ("!" ++ x.trace) (.bool (!asBool x.value))
  | n + 1, .binary op left right => do
    let x ← eval lookup n left
    let y ← eval lookup n right
    let b ← op.apply x.value y.value
    return .of (x.trace ++ " " ++ op.symbol ++ " " ++ y.trace) (.bool b)
  | n + 1, .call name args => do
    let xs ← args.mapM (eval lookup n)
    match call name (xs.map Outcome.value) with
    | .error fault => .error (.call fault)
    | .ok v => .ok (.of (name ++ "(" ++ ", ".intercalate (xs.map Outcome.trace) ++ ")") v)

/-- What stands between `${{` and `}}` when they enclose a whole text. -/
def unwrapped? (cs : List Char) : Option (List Char) := do
  let inner ← after? "$\x7b\x7b".toList cs
  let reversed ← after? "\x7d\x7d".toList inner.reverse
  return reversed.reverse

/-- The condition in a text, with or without the wrapper around it. -/
def stripWrapper (text : String) : String :=
  let cs := trim text.toList
  match unwrapped? cs with
  | some inner => String.ofList (trim inner)
  | none => String.ofList cs

/-- The outcome of a text where `lookup` answers for paths. -/
def evaluate (lookup : String → Option Value) (text : String) : Except Fault Outcome :=
  let source := stripWrapper text
  if source = "" then .error (.badSyntax ⟨.empty, none⟩ text)
  else
    match parse source with
    | .error fault => .error (.badSyntax fault source)
    | .ok tree =>
      match eval lookup depthLimit tree with
      | .ok outcome => .ok outcome
      | .error (.call fault) => .error (.call fault)
      | .error .integerTooLarge => .error .integerTooLarge
      | .error .integerTooLong => .error .integerTooLong
      | .error .nestedTooDeeply => .error (.badSyntax ⟨.nestedTooDeeply, none⟩ source)

end Drydock.Expr
