import Drydock.Number.Refusal

set_option autoImplicit false
set_option relaxedAutoImplicit false

/-!
What can be wrong with a condition. A syntax fault says what and where; a call fault arises when a
well-formed condition is evaluated.
-/

namespace Drydock.Expr

open Text (quoted)

/-- Why a text is no condition. -/
inductive Cause
  | unterminatedText
  | unexpectedChar (c : Char)
  | unexpectedToken (content : String)
  | unclosedGroup
  | endOfExpression
  | unclosedCall (name : String)
  | missingSeparator (name : String)
  | empty
  | nestedTooDeeply
  deriving DecidableEq, Repr

/-- The wording of a cause. -/
def Cause.message : Cause → String
  | .unterminatedText => "unterminated string"
  | .unexpectedChar c => "unexpected character " ++ quoted c.toString
  | .unexpectedToken content => "unexpected token " ++ quoted content
  | .unclosedGroup => "unclosed group, expected ')'"
  | .endOfExpression => "unexpected end of expression"
  | .unclosedCall name => s!"unclosed call to {name}()"
  | .missingSeparator name => s!"expected ',' or ')' in call to {name}()"
  | .empty => "empty expression"
  | .nestedTooDeeply => "expression nested too deeply"

/-- A cause and the place of the character or token it is about, if there is one. -/
structure SyntaxFault where
  cause : Cause
  position : Option Nat
  deriving DecidableEq, Repr

/-- The wording of a syntax fault in a text. -/
def SyntaxFault.message (f : SyntaxFault) (source : String) : String :=
  match f.position with
  | some p => s!"{f.cause.message} at position {p} in {quoted source}"
  | none => s!"{f.cause.message} in {quoted source}"

/-- How many arguments a function takes. -/
structure Arity where
  low : Nat
  /-- No upper bound if absent. -/
  high : Option Nat
  deriving DecidableEq, Repr

/-- The number of arguments is admitted. -/
def Arity.admits (a : Arity) (n : Nat) : Bool :=
  a.low ≤ n && a.high.all (n ≤ ·)

/-- The wording of an arity. -/
def Arity.text (a : Arity) : String :=
  match a.high with
  | none => s!"at least {a.low} argument(s)"
  | some h => if h = a.low then s!"{a.low} argument(s)" else s!"{a.low} to {h} argument(s)"

/-- Why a well-formed condition has no value. -/
inductive CallFault
  | unknownFunction (name : String)
  | arity (name : String) (expected : Arity) (got : Nat)
  | unknownOperator (symbol : String)
  deriving DecidableEq, Repr

/-- The wording of a call fault. -/
def CallFault.message : CallFault → String
  | .unknownFunction name => s!"unknown function: {name}"
  | .arity name expected got => s!"{name}() requires {expected.text}, got {got}"
  | .unknownOperator symbol => s!"unknown operator: {symbol}"

/-- Why evaluation stops. -/
inductive EvalFault
  | call (f : CallFault)
  | nestedTooDeeply
  /-- An integer beyond the range of doubles was compared by size. -/
  | integerTooLarge
  /-- An integer with too many digits was read. -/
  | integerTooLong
  deriving DecidableEq, Repr

/-- Why a text has no value. -/
inductive Fault
  | badSyntax (f : SyntaxFault) (source : String)
  | call (f : CallFault)
  | integerTooLarge
  | integerTooLong
  deriving DecidableEq, Repr

/-- The wording of a fault. -/
def Fault.message : Fault → String
  | .badSyntax f source => f.message source
  | .call f => f.message
  | .integerTooLarge => Number.beyondDoubles
  | .integerTooLong => Number.notWritable

end Drydock.Expr
