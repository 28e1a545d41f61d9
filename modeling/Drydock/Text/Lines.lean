set_option autoImplicit false
set_option relaxedAutoImplicit false

/-!
Lines of a text. Two notions are kept apart: the boundaries at which a text is split into lines,
and the newline forms that reading a text file turns into a single line feed.
-/

namespace Drydock.Text

/-- A character that ends a line: the ASCII controls from line feed to carriage return, the file,
group and record separators, next line, and the line and paragraph separators. -/
def isLineBoundary (c : Char) : Bool :=
  let n := c.toNat
  (10 ≤ n && n ≤ 13) || (28 ≤ n && n ≤ 30) || n == 0x85 || n == 0x2028 || n == 0x2029

/-- The lines of a text without their boundaries; a carriage return and the line feed after it are
one boundary, and a boundary at the very end opens no further line. -/
def splitLines : List Char → List (List Char)
  | [] => []
  | '\r' :: '\n' :: r => [] :: splitLines r
  | c :: r =>
    if isLineBoundary c then [] :: splitLines r
    else match splitLines r with
      | [] => [[c]]
      | l :: ls => (c :: l) :: ls

/-- A carriage return, alone or before a line feed, becomes a line feed. -/
def unifyNewlines : List Char → List Char
  | [] => []
  | '\r' :: '\n' :: r => '\n' :: unifyNewlines r
  | c :: r => (if c = '\r' then '\n' else c) :: unifyNewlines r

end Drydock.Text
