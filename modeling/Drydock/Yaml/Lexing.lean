import Drydock.Yaml.Block
import Drydock.Yaml.Plain
import Drydock.Yaml.Tag

set_option autoImplicit false
set_option relaxedAutoImplicit false

/-!
From text to tokens. A key of a mapping is recognised only at the colon after it, so every place
where a key may have begun is remembered until the line ends, and the tokens that start the key, and
with it perhaps a mapping, are put in there afterwards.
-/

namespace Drydock.Yaml

/-- A place where a key may have begun. -/
structure KeyMark where
  /-- The number of tokens before it. -/
  tokens : Nat
  /-- Only a key can stand there. -/
  required : Bool
  index : Nat
  line : Nat
  column : Nat
  deriving Repr

/-- How far a text has been taken apart. Tokens stand in reverse order. -/
structure Lexing where
  cursor : Cursor
  tokens : List Token
  indent : Int
  outer : List Int
  flow : Nat
  keyAllowed : Bool
  marks : List (Nat × KeyMark)
  deriving Repr

namespace Lexing

/-- The start of a text. -/
def start (text : List Char) : Lexing := ⟨.start text, [], -1, [], 0, true, []⟩

/-- Adds a token. -/
def push (s : Lexing) (t : Token) : Lexing :=
  { s with tokens := t :: s.tokens }

/-- Puts a token before those after the first `n`. -/
def insert (s : Lexing) (n : Nat) (t : Token) : Lexing :=
  let later := s.tokens.length - n
  { s with tokens := s.tokens.take later ++ t :: s.tokens.drop later }

/-- Adds a token that takes some characters. -/
def take (s : Lexing) (n : Nat) (t : Token) : Lexing :=
  { s.push t with cursor := s.cursor.forward n }

/-- A key can no longer begin at a mark on an earlier line or far behind. -/
def isStale (s : Lexing) (m : KeyMark) : Bool :=
  m.line != s.cursor.line || s.cursor.index - m.index > 1024

/-- Forgets marks at which no key can begin any more. -/
def dropStale (s : Lexing) : Option Lexing :=
  if s.marks.any fun m => m.2.required && s.isStale m.2 then none
  else some { s with marks := s.marks.filter fun m => !s.isStale m.2 }

/-- Forgets the mark of the current level, at which no key must be required. -/
def dropMark (s : Lexing) : Option Lexing :=
  if s.marks.any fun m => m.1 == s.flow && m.2.required then none
  else some { s with marks := s.marks.filter fun m => m.1 != s.flow }

/-- Remembers that a key may begin here. -/
def saveMark (s : Lexing) : Option Lexing :=
  if s.keyAllowed then do
    let required := s.flow == 0 && s.indent == (s.cursor.column : Int)
    let s ← s.dropMark
    let mark := ⟨s.tokens.length, required, s.cursor.index, s.cursor.line, s.cursor.column⟩
    return { s with marks := (s.flow, mark) :: s.marks }
  else some s

/-- Ends block collections that are indented further than a column. -/
def unwind (column : Int) : List Int → Lexing → Lexing
  | [], s => s
  | outer :: r, s =>
    if s.flow = 0 && s.indent > column then
      unwind column r { s.push .blockEnd with indent := outer, outer := r }
    else s

/-- Starts a block collection at a column that is further right; the token is put in at a place. -/
def deepen (s : Lexing) (column : Int) (place : Nat) (t : Token) : Lexing :=
  if s.indent < column then
    { s.insert place t with indent := column, outer := s.indent :: s.outer }
  else s

/-- Passes over blanks, comments and line breaks. A key may begin on a new line. -/
def skipSpace : Nat → Lexing → Lexing
  | 0, s => s
  | fuel + 1, s =>
    let c := s.cursor.skipComment
    if c.sees isBreak then
      skipSpace fuel { s with cursor := c.lineBreak.2, keyAllowed := s.keyAllowed || s.flow == 0 }
    else { s with cursor := c }

/-- A token that stands outside all collections. -/
def outside (s : Lexing) : Option Lexing := do
  let s ← (unwind (-1) s.outer s).dropMark
  return { s with keyAllowed := false }

/-- A scalar, an anchor, an alias or a tag: a key may have begun with it. -/
def content (s : Lexing) (read : Cursor → Option (Token × Cursor)) : Option Lexing := do
  let s ← s.saveMark
  let (t, c) ← read s.cursor
  return { s.push t with cursor := c, keyAllowed := false }

/-- An entry of a block sequence. -/
def blockEntry (s : Lexing) : Option Lexing := do
  if s.flow = 0 && !s.keyAllowed then none
  else
    let s := if s.flow = 0 then s.deepen s.cursor.column s.tokens.length .blockSequence else s
    let s ← { s with keyAllowed := true }.dropMark
    return s.take 1 .blockEntry

/-- The mark of a key that is not simple. -/
def explicitKey (s : Lexing) : Option Lexing := do
  if s.flow = 0 && !s.keyAllowed then none
  else
    let s := if s.flow = 0 then s.deepen s.cursor.column s.tokens.length .blockMapping else s
    let s ← { s with keyAllowed := s.flow == 0 }.dropMark
    return s.take 1 .key

/-- The colon between a key and its value. -/
def value (s : Lexing) : Option Lexing :=
  match s.marks.find? fun m => m.1 == s.flow with
  | some (_, m) =>
    let s := { s with marks := s.marks.filter fun m => m.1 != s.flow }.insert m.tokens .key
    let s := if s.flow = 0 then s.deepen m.column m.tokens .blockMapping else s
    some ({ s with keyAllowed := false }.take 1 .value)
  | none =>
    if s.flow = 0 && !s.keyAllowed then none
    else do
      let s := if s.flow = 0 then s.deepen s.cursor.column s.tokens.length .blockMapping else s
      let s ← { s with keyAllowed := s.flow == 0 }.dropMark
      return s.take 1 .value

/-- A character that cannot begin a plain scalar, or only in front of content. -/
def isIndicator (c : Char) : Bool :=
  isSpace c || "-?:,[]#&*!|>'\"%@`".toList.contains c || c == '\x7b' || c == '\x7d'

/-- A plain scalar begins here. -/
def seesPlain (s : Lexing) (ch : Char) : Bool :=
  !isIndicator ch ||
    (!endOr isSpace (s.cursor.peek 1) && (ch == '-' || (s.flow == 0 && (ch == '?' || ch == ':'))))

/-- The token that begins with a character. -/
def token (s : Lexing) (ch : Char) : Option Lexing := do
  let c := s.cursor
  let spaced := endOr isSpace (c.peek 1)
  let inFlow := s.flow != 0
  if ch = '%' && c.column = 0 then
    let s ← s.outside
    let (t, c) ← directive s.cursor
    return { s.push t with cursor := c }
  else if ch = '-' && c.column = 0 && c.seesMark '-' then
    return (← s.outside).take 3 .documentStart
  else if ch = '.' && c.column = 0 && c.seesMark '.' then
    return (← s.outside).take 3 .documentEnd
  else if ch = '[' || ch = '\x7b' then
    let s ← s.saveMark
    let t := if ch = '[' then Token.flowSequence else Token.flowMapping
    return { s with flow := s.flow + 1, keyAllowed := true }.take 1 t
  else if ch = ']' || ch = '\x7d' then
    let s ← s.dropMark
    let t := if ch = ']' then Token.flowSequenceEnd else Token.flowMappingEnd
    return { s with flow := s.flow - 1, keyAllowed := false }.take 1 t
  else if ch = ',' then
    let s ← { s with keyAllowed := true }.dropMark
    return s.take 1 .flowEntry
  else if ch = '-' && spaced then s.blockEntry
  else if ch = '?' && (inFlow || spaced) then s.explicitKey
  else if ch = ':' && (inFlow || spaced) then s.value
  else if ch = '*' then
    s.content fun c => do
      let (name, c) ← anchorName c
      return (.alias name, c)
  else if ch = '&' then
    s.content fun c => do
      let (name, c) ← anchorName c
      return (.anchor name, c)
  else if ch = '!' then s.content tag
  else if (ch = '|' || ch = '>') && !inFlow then
    let s ← { s with keyAllowed := true }.dropMark
    let (text, c) ← blockScalar s.indent s.cursor
    return { s.push (.scalar false text) with cursor := c }
  else if ch = '\'' || ch = '"' then s.content quotedScalar
  else if s.seesPlain ch then
    let s ← s.saveMark
    let (text, c, ended) := plainScalar inFlow (s.indent + 1) s.cursor
    return { s.push (.scalar true text) with cursor := c, keyAllowed := ended }
  else none

/-- The last token is an obstacle. -/
def isBroken (s : Lexing) : Bool :=
  match s.tokens with
  | .obstacle _ :: _ => true
  | _ => false

/-- The number of tokens in front of the first place where a key may have begun. What is behind it
is known only together with the next token. -/
def settled (s : Lexing) : Nat :=
  (s.marks.filter fun m => !s.isStale m.2).foldl (fun n m => min n m.2.tokens) s.tokens.length

/-- The first `n` tokens, and the last one in place of all others. -/
def breakAfter (s : Lexing) (n : Nat) : List Token :=
  s.tokens.reverse.take n ++ s.tokens.take 1

/-- Takes the text apart token by token; the count bounds the tokens by the characters. -/
def run : Nat → Lexing → Option (List Token)
  | 0, _ => none
  | fuel + 1, s => do
    let settled := s.settled
    let s ← (skipSpace (s.cursor.rest.length + 1) s).dropStale
    let s := unwind s.cursor.column s.outer s
    match s.cursor.rest with
    | [] =>
      let s ← s.outside
      return s.tokens.reverse
    | ch :: _ =>
      let s ← s.token ch
      if s.isBroken then return s.breakAfter settled else run fuel s

end Lexing

/-- A character that a document may hold. -/
def isAllowed (c : Char) : Bool :=
  let n := c.toNat
  n == 9 || n == 10 || n == 13 || (0x20 ≤ n && n ≤ 0x7E) || n == 0x85 ||
    (0xA0 ≤ n && n ≤ 0xD7FF) || (0xE000 ≤ n && n ≤ 0xFFFD) || 0x10000 ≤ n

/-- The tokens of a text. A byte order mark at its start is passed over. -/
def tokens? (text : List Char) : Option (List Token) :=
  if text.all isAllowed then
    let c := Cursor.start text
    let c := if c.sees (·.toNat == 0xFEFF) then c.next else c
    Lexing.run (text.length + 2) { Lexing.start text with cursor := c }
  else none

end Drydock.Yaml
