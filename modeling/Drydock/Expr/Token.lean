set_option autoImplicit false
set_option relaxedAutoImplicit false

/-!
The tokens of a condition: names, literals, operators and punctuation, each at its place in the
text.
-/

namespace Drydock.Expr

/-- The operators between two operands. -/
inductive Operator
  | or | and | eq | ne | lt | gt | le | ge
  deriving DecidableEq, Repr

namespace Operator

/-- How an operator is written. -/
def symbol : Operator → String
  | or => "||"
  | and => "&&"
  | eq => "=="
  | ne => "!="
  | lt => "<"
  | gt => ">"
  | le => "<="
  | ge => ">="

/-- All operators. -/
def all : List Operator := [or, and, eq, ne, lt, gt, le, ge]

/-- The operator with a symbol. -/
def ofSymbol? (s : String) : Option Operator :=
  all.find? fun o => o.symbol == s

end Operator

/-- What a token is. A keyword is a literal whatever the case of its letters. -/
inductive Kind
  | ident (name : String)
  | text (content : String)
  | number (digits : String)
  | bool (b : Bool)
  | null
  | lparen | rparen | comma | not
  | operator (op : Operator)
  | eof
  deriving DecidableEq, Repr

/-- The content of a token: a text without its quotes, a keyword in lower case. -/
def Kind.content : Kind → String
  | .ident name => name
  | .text content => content
  | .number digits => digits
  | .bool b => if b then "true" else "false"
  | .null => "null"
  | .lparen => "("
  | .rparen => ")"
  | .comma => ","
  | .not => "!"
  | .operator op => op.symbol
  | .eof => ""

/-- A token and the number of characters before it. -/
structure Token where
  kind : Kind
  position : Nat
  deriving DecidableEq, Repr

end Drydock.Expr
