import Drydock.Number.Integer
import Drydock.Text.Utf8
import Drydock.Yaml.Quoted
import Drydock.Yaml.Token

set_option autoImplicit false
set_option relaxedAutoImplicit false

/-!
The names in front of a node: tags, anchors and aliases, and the lines that begin with a percent
sign.
-/

namespace Drydock.Yaml

open Number (digitIn? mostDigits ofDigits)

/-- A character of an anchor, a handle or the name of a directive. -/
def isWordChar (c : Char) : Bool :=
  c.isAlphanum || c == '-' || c == '_'

/-- A character of a tag. -/
def isTagChar (c : Char) : Bool :=
  c.isAlphanum || "-;/?:@&=+$,_.!~*'()[]".toList.contains c

/-- Bytes written as percent signs with two hexadecimal digits each. -/
def escapedBytes : List Char → Option (List UInt8 × List Char)
  | '%' :: a :: b :: r => do
    let n ← hexNumber? [a, b]
    let more ← escapedBytes r
    return (UInt8.ofNat n :: more.1, more.2)
  | '%' :: _ => none
  | cs => some ([], cs)

/-- The characters of a tag, with escaped bytes decoded; the count bounds the runs of them. -/
def tagChars : Nat → List Char → Option (List Char × List Char)
  | 0, cs => some ([], cs)
  | fuel + 1, cs =>
    match cs with
    | '%' :: _ => do
      let bytes ← escapedBytes cs
      let text ← (Text.Utf8.decode bytes.1).toOption
      let more ← tagChars fuel bytes.2
      return (text ++ more.1, more.2)
    | ch :: r =>
      if isTagChar ch then do
        let more ← tagChars fuel r
        return (ch :: more.1, more.2)
      else some ([], cs)
    | [] => some ([], [])

/-- The text of a tag, which is not empty. -/
def tagText (c : Cursor) : Option (String × Cursor) := do
  let result ← tagChars (c.rest.length + 1) c.rest
  let width := c.rest.length - result.2.length
  if width = 0 then none else return (String.ofList result.1, c.forward width)

/-- A handle: an exclamation mark, or a word between two of them. -/
def tagHandle (c : Cursor) : Option (String × Cursor) :=
  match c.rest with
  | '!' :: ' ' :: _ => some ("!", c.next)
  | '!' :: r =>
    let word := r.takeWhile isWordChar
    if (r.drop word.length).head? = some '!' then
      some (String.ofList ('!' :: word ++ ['!']), c.forward (word.length + 2))
    else none
  | _ => none

/-- A second exclamation mark follows before any blank or line break. -/
def hasHandle : List Char → Bool
  | [] => false
  | ch :: r => ch == '!' || (!(ch == ' ' || isBreak ch) && hasHandle r)

/-- A tag, from its exclamation mark on. -/
def tag (c : Cursor) : Option (Token × Cursor) := do
  let (token, c) ←
    match c.peek 1 with
    | some '<' => do
      let (suffix, c) ← tagText (c.forward 2)
      if c.sees (· == '>') then some (Token.tag none suffix, c.next) else none
    | ch =>
      if endOr isSpace ch then some (Token.tag none "!", c.next)
      else if hasHandle (c.rest.drop 1) then do
        let (handle, c) ← tagHandle c
        let (suffix, c) ← tagText c
        some (Token.tag (some handle) suffix, c)
      else do
        let (suffix, c) ← tagText c.next
        some (Token.tag (some "!") suffix, c)
  if endOr (fun ch => ch == ' ' || isBreak ch) (c.peek 0) then some (token, c) else none

/-- A character that may follow the name of an anchor. -/
def endsAnchor (c : Char) : Bool :=
  isSpace c || "?:,]%@`".toList.contains c || c == '\x7d'

/-- The name after the mark of an anchor or an alias. -/
def anchorName (c : Cursor) : Option (String × Cursor) :=
  let name := c.next.takeWhile isWordChar
  if name.1 ≠ [] && endOr endsAnchor (name.2.peek 0) then some (String.ofList name.1, name.2)
  else none

/-- A blank or a line break stands here, or the text ends. -/
def endsWord (c : Cursor) : Bool :=
  endOr (fun ch => ch == ' ' || isBreak ch) (c.peek 0)

/-- The digits of a number in a directive. -/
def directiveDigits (c : Cursor) : Option (List Char × Cursor) :=
  let digits := c.takeWhile Char.isDigit
  if digits.1 = [] then none else some digits

/-- The version in a directive: two numbers, of which the first one counts. -/
def versionDirective (c : Cursor) : Option (Token × Cursor) := do
  let (major, c) ← directiveDigits c
  if mostDigits < major.length then some (.obstacle (.digits major.length), c)
  else if c.sees (· == '.') then
    let (minor, c) ← directiveDigits c.next
    if mostDigits < minor.length then some (.obstacle (.digits minor.length), c)
    else if endsWord c then
      some (.directive (.version (ofDigits 10 (major.filterMap (digitIn? 10)))), c)
    else none
  else none

/-- The handle in a directive, and what it stands for. -/
def handleDirective (c : Cursor) : Option (Token × Cursor) := do
  let (handle, c) ← tagHandle c
  if c.sees (· == ' ') then
    let (expansion, c) ← tagText (c.skipWhile (· == ' '))
    if endsWord c then some (.directive (.handle handle expansion), c) else none
  else none

/-- A line that begins with a percent sign. -/
def directive (c : Cursor) : Option (Token × Cursor) := do
  let name := c.next.takeWhile isWordChar
  let c := name.2
  if name.1 = [] || !endsWord c then none
  else
    let blanks := c.skipWhile (· == ' ')
    let found ←
      if name.1 = "YAML".toList then versionDirective blanks
      else if name.1 = "TAG".toList then handleDirective blanks
      else some (.directive .unknown, c.skipWhile fun ch => !isBreak ch)
    match found with
    | (.obstacle o, c) => some (.obstacle o, c)
    | (t, c) => c.endOfLine?.map (t, ·)

end Drydock.Yaml
