import Drydock.Expr.Lexer
import Drydock.Expr.Syntax
import Drydock.Number.Reading

set_option autoImplicit false
set_option relaxedAutoImplicit false

/-!
From tokens to trees. From the loosest to the tightest binding the operators are `||`, `&&`, the
equalities, and the comparisons, all grouping to the left; then come `!` and the primaries: a
literal, a path, a call, a group. A budget bounds how deeply groups, calls and negations nest.
-/

namespace Drydock.Expr

/-- How deeply a condition may nest. -/
def depthLimit : Nat := 1000

/-- Reads a phrase off the front of the tokens. -/
abbrev Reader (α : Type) := List Token → Except SyntaxFault (α × List Token)

/-- The place of the next token. -/
def place (tokens : List Token) : Option Nat :=
  tokens.head?.map Token.position

/-- The disjunction, if a token is one. -/
def orOperator? : Kind → Option Operator
  | .operator .or => some .or
  | _ => none

/-- The conjunction, if a token is one. -/
def andOperator? : Kind → Option Operator
  | .operator .and => some .and
  | _ => none

/-- The equality that a token is. -/
def equalityOperator? : Kind → Option Operator
  | .operator .eq => some .eq
  | .operator .ne => some .ne
  | _ => none

/-- The comparison by size that a token is. -/
def relationOperator? : Kind → Option Operator
  | .operator .lt => some .lt
  | .operator .gt => some .gt
  | .operator .le => some .le
  | .operator .ge => some .ge
  | _ => none

/-- Extends a tree by the operators of one level and their right operands. The count bounds the
operators by the tokens that are left. -/
def extend (operator? : Kind → Option Operator) (operand : Reader Tree) : Nat → Tree → Reader Tree
  | 0, left, tokens => .ok (left, tokens)
  | _ + 1, left, [] => .ok (left, [])
  | n + 1, left, t :: r =>
    match operator? t.kind with
    | none => .ok (left, t :: r)
    | some op =>
      match operand r with
      | .error fault => .error fault
      | .ok (right, rest) => extend operator? operand n (.binary op left right) rest

/-- Operands of one level between its operators, grouped to the left. -/
def level (operator? : Kind → Option Operator) (operand : Reader Tree) : Reader Tree
  | tokens =>
    match operand tokens with
    | .error fault => .error fault
    | .ok (left, rest) => extend operator? operand rest.length left rest

/-- The arguments of a call after its opening parenthesis, at least one. The count bounds them by
the tokens that are left. -/
def arguments (name : Token) (operand : Reader Tree) : Nat → Reader (List Tree)
  | 0, _ => .error ⟨.unclosedCall name.kind.content, some name.position⟩
  | n + 1, tokens =>
    match tokens.head?.map Token.kind with
    | none | some .eof => .error ⟨.unclosedCall name.kind.content, some name.position⟩
    | some _ =>
      match operand tokens with
      | .error fault => .error fault
      | .ok (arg, rest) =>
        match rest with
        | ⟨.comma, _⟩ :: r =>
          match arguments name operand n r with
          | .error fault => .error fault
          | .ok (args, rest) => .ok (arg :: args, rest)
        | ⟨.rparen, _⟩ :: r => .ok ([arg], r)
        | [] | ⟨.eof, _⟩ :: _ => .error ⟨.unclosedCall name.kind.content, some name.position⟩
        | t :: _ => .error ⟨.missingSeparator name.kind.content, some t.position⟩

/-- A literal, a path, a call or a group. -/
def primary (operand : Reader Tree) : Reader Tree
  | [] => .error ⟨.endOfExpression, none⟩
  | t :: r =>
    match t.kind with
    | .text content => .ok (.literal (.text content), r)
    | .number digits => .ok (.literal (.float ((Number.readFloat? digits.toList).getD 0)), r)
    | .bool b => .ok (.literal (.bool b), r)
    | .null => .ok (.literal .null, r)
    | .ident name =>
      match r with
      | ⟨.lparen, _⟩ :: ⟨.rparen, _⟩ :: rest => .ok (.call name [], rest)
      | ⟨.lparen, _⟩ :: rest =>
        match arguments t operand rest.length rest with
        | .error fault => .error fault
        | .ok (args, rest) => .ok (.call name args, rest)
      | _ => .ok (.path name, r)
    | .lparen =>
      match operand r with
      | .error fault => .error fault
      | .ok (tree, ⟨.rparen, _⟩ :: rest) => .ok (tree, rest)
      | .ok (_, rest) => .error ⟨.unclosedGroup, place rest⟩
    | .eof => .error ⟨.endOfExpression, some t.position⟩
    | kind => .error ⟨.unexpectedToken kind.content, some t.position⟩

mutual

/-- A disjunction, with a budget for nesting. -/
def disjunction : Nat → Reader Tree
  | 0 => fun _ => .error ⟨.nestedTooDeeply, none⟩
  | n + 1 =>
    level orOperator? <| level andOperator? <| level equalityOperator? <|
      level relationOperator? (negation n)
termination_by structural n => n

/-- A primary after any number of negations, with a budget for nesting. -/
def negation : Nat → Reader Tree
  | 0 => fun _ => .error ⟨.nestedTooDeeply, none⟩
  | n + 1 => fun tokens =>
    match tokens with
    | ⟨.not, _⟩ :: r =>
      match negation n r with
      | .error fault => .error fault
      | .ok (tree, rest) => .ok (.not tree, rest)
    | _ => primary (disjunction n) tokens
termination_by structural n => n

end

/-- The tree of all tokens up to the end. -/
def parseTokens (tokens : List Token) : Except SyntaxFault Tree :=
  match disjunction depthLimit tokens with
  | .error fault => .error fault
  | .ok (tree, rest) =>
    match rest with
    | [] | ⟨.eof, _⟩ :: _ => .ok tree
    | t :: _ => .error ⟨.unexpectedToken t.kind.content, some t.position⟩

/-- The tree of a text. -/
def parse (text : String) : Except SyntaxFault Tree :=
  match tokenize text with
  | .error fault => .error fault
  | .ok tokens => parseTokens tokens

end Drydock.Expr
