set_option autoImplicit false
set_option relaxedAutoImplicit false

/-!
A place in a text, with its line and column, and the characters that matter to the layout of a
document: blanks, line breaks, and the marks between documents.
-/

namespace Drydock.Yaml

/-- A character that breaks a line. -/
def isBreak (c : Char) : Bool :=
  c == '\n' || c == '\r' || c.toNat == 0x85 || c.toNat == 0x2028 || c.toNat == 0x2029

/-- A blank, a tabulation or a line break. -/
def isSpace (c : Char) : Bool :=
  c == ' ' || c == '\t' || isBreak c

/-- The text ends here, or a character of a class stands here. -/
def endOr (p : Char → Bool) (c : Option Char) : Bool :=
  c.all p

/-- A place in a text. -/
structure Cursor where
  rest : List Char
  index : Nat
  line : Nat
  column : Nat
  deriving Repr

namespace Cursor

/-- The start of a text. -/
def start (text : List Char) : Cursor := ⟨text, 0, 0, 0⟩

/-- The character some places ahead. -/
def peek (c : Cursor) (ahead : Nat) : Option Char :=
  c.rest[ahead]?

/-- The character here belongs to a class. -/
def sees (c : Cursor) (p : Char → Bool) : Bool :=
  (c.rest.head?).any p

/-- The place after one character. A byte order mark takes no column. -/
def next (c : Cursor) : Cursor :=
  match c.rest with
  | [] => c
  | ch :: r =>
    if isBreak ch && !(ch == '\r' && r.head? == some '\n') then ⟨r, c.index + 1, c.line + 1, 0⟩
    else ⟨r, c.index + 1, c.line, if ch.toNat = 0xFEFF then c.column else c.column + 1⟩

/-- The place after some characters. -/
def forward : Nat → Cursor → Cursor
  | 0, c => c
  | n + 1, c => forward n c.next

/-- The place after the characters of a class, and those characters. -/
def takeWhile (p : Char → Bool) (c : Cursor) : List Char × Cursor :=
  let run := c.rest.takeWhile p
  (run, c.forward run.length)

/-- The place after the characters of a class. -/
def skipWhile (p : Char → Bool) (c : Cursor) : Cursor :=
  (c.takeWhile p).2

/-- A line break, as it counts in the text of a scalar, and the place after it. Only the line and
paragraph separators stay what they are. -/
def lineBreak (c : Cursor) : List Char × Cursor :=
  match c.rest with
  | '\r' :: '\n' :: _ => (['\n'], c.forward 2)
  | ch :: _ =>
    if ch.toNat = 0x2028 || ch.toNat = 0x2029 then ([ch], c.next)
    else if isBreak ch then (['\n'], c.next)
    else ([], c)
  | [] => ([], c)

/-- The place after the blanks and the comment here. -/
def skipComment (c : Cursor) : Cursor :=
  let c := c.skipWhile (· == ' ')
  if c.sees (· == '#') then c.skipWhile (fun ch => !isBreak ch) else c

/-- Three equal marks stand here, with nothing but space after them. -/
def seesMark (c : Cursor) (mark : Char) : Bool :=
  c.rest.take 3 == [mark, mark, mark] && endOr isSpace (c.peek 3)

/-- A mark between documents stands here. -/
def seesSeparator (c : Cursor) : Bool :=
  c.seesMark '-' || c.seesMark '.'

/-- What remains of a line after a header: blanks and a comment. -/
def endOfLine? (c : Cursor) : Option Cursor :=
  let c := c.skipComment
  if endOr isBreak (c.peek 0) then some c.lineBreak.2 else none

end Cursor

end Drydock.Yaml
