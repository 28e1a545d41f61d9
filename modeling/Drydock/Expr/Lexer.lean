import Drydock.Expr.Fault
import Drydock.Expr.Token
import Drydock.Text.Blank
import Drydock.Text.Digit
import Drydock.Text.Letter

set_option autoImplicit false
set_option relaxedAutoImplicit false

/-!
From text to tokens. At each place the longest operator wins, a text runs to the next single quote,
a number has at most one point with a digit on its right, and a name keeps its points.
-/

namespace Drydock.Expr

open Text (isAsciiDigit isBlank isLetter isLetterOrNumeral)

/-- A character that begins a name. -/
def beginsName (c : Char) : Bool :=
  isLetter c || c == '_'

/-- A character inside a name. -/
def continuesName (c : Char) : Bool :=
  isLetterOrNumeral c || c == '_' || c == '.'

/-- A text begins with an ASCII digit. -/
def startsWithDigit : List Char → Bool
  | [] => false
  | c :: _ => isAsciiDigit c

/-- How many characters continue a number. -/
def numberTail (seenPoint : Bool) : List Char → Nat
  | [] => 0
  | c :: r =>
    if isAsciiDigit c then numberTail seenPoint r + 1
    else if c == '.' && !seenPoint && startsWithDigit r then numberTail true r + 1
    else 0

/-- The keyword or name that a word is. -/
def wordKind (word : List Char) : Kind :=
  let folded := word.map Char.toLower
  if folded = "true".toList then .bool true
  else if folded = "false".toList then .bool false
  else if folded = "null".toList then .null
  else .ident (String.ofList word)

/-- The operator of two characters. -/
def pairOperator? (c d : Char) : Option Operator :=
  match c, d with
  | '=', '=' => some .eq
  | '!', '=' => some .ne
  | '&', '&' => some .and
  | '|', '|' => some .or
  | '<', '=' => some .le
  | '>', '=' => some .ge
  | _, _ => none

/-- The token of one character. -/
def singleKind? (c : Char) : Option Kind :=
  match c with
  | '(' => some .lparen
  | ')' => some .rparen
  | ',' => some .comma
  | '!' => some .not
  | '<' => some (.operator .lt)
  | '>' => some (.operator .gt)
  | _ => none

/-- The token that a character begins which is not blank, and how many further characters it
takes. -/
def lexeme (c : Char) (r : List Char) : Except Cause (Kind × Nat) :=
  match r.head?.bind (pairOperator? c) with
  | some op => .ok (.operator op, 1)
  | none =>
    match singleKind? c with
    | some kind => .ok (kind, 0)
    | none =>
      if c = '\'' then
        let content := r.takeWhile (· ≠ '\'')
        if content.length < r.length then .ok (.text (String.ofList content), content.length + 1)
        else .error .unterminatedText
      else if isAsciiDigit c || (c == '-' && startsWithDigit r) then
        let n := numberTail false r
        .ok (.number (String.ofList (c :: r.take n)), n)
      else if beginsName c then
        let tail := r.takeWhile continuesName
        .ok (wordKind (c :: tail), tail.length)
      else .error (.unexpectedChar c)

/-- The tokens of a text that begins at a position, the end among them. -/
def tokensFrom (position : Nat) : List Char → Except SyntaxFault (List Token)
  | [] => .ok [⟨.eof, position⟩]
  | c :: r =>
    if isBlank c then tokensFrom (position + 1) r
    else
      match lexeme c r with
      | .error cause => .error ⟨cause, some position⟩
      | .ok (kind, extra) =>
        match tokensFrom (position + (extra + 1)) (r.drop extra) with
        | .error fault => .error fault
        | .ok tokens => .ok (⟨kind, position⟩ :: tokens)
termination_by cs => cs.length
decreasing_by
  · simp
  · simp only [List.length_cons, List.length_drop]
    omega

/-- The tokens of a text. -/
def tokenize (text : String) : Except SyntaxFault (List Token) :=
  tokensFrom 0 text.toList

end Drydock.Expr
