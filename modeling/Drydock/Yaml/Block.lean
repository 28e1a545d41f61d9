import Drydock.Yaml.Cursor

set_option autoImplicit false
set_option relaxedAutoImplicit false

/-!
Block scalars. The header says how line breaks at the end are kept and may give the indentation;
otherwise the first line with content gives it. In the folded style a single line break between two
lines that begin without space becomes a blank.
-/

namespace Drydock.Yaml

/-- What happens to the line breaks at the end of a block scalar. -/
inductive Chomping
  | strip | clip | keep
  deriving DecidableEq, Repr

/-- The chomping that a sign asks for. -/
def chomping? (c : Cursor) : Option Chomping :=
  match c.peek 0 with
  | some '+' => some .keep
  | some '-' => some .strip
  | _ => none

/-- The indentation that a digit asks for. -/
def increment? (c : Cursor) : Option Nat :=
  (c.peek 0).bind fun ch => if '0' ≤ ch && ch ≤ '9' then some (ch.toNat - '0'.toNat) else none

/-- The header of a block scalar: chomping and indentation in either order. -/
def blockHeader (c : Cursor) : Option (Chomping × Option Nat × Cursor) := do
  let (chomping, increment, c) :=
    match chomping? c, increment? c with
    | some ch, _ =>
      let n := increment? c.next
      (ch, n, if n.isSome then c.forward 2 else c.next)
    | none, some n =>
      let ch := chomping? c.next
      (ch.getD .clip, some n, if ch.isSome then c.forward 2 else c.next)
    | none, none => (.clip, none, c)
  if increment = some 0 then none
  else if endOr (fun ch => ch == ' ' || isBreak ch) (c.peek 0) then do
    let c ← c.endOfLine?
    return (chomping, increment, c)
  else none

/-- The line breaks before the first content, the widest indentation among those lines, and the
place of the content. -/
def blockIndentation : Nat → Cursor → Nat → List Char × Nat × Cursor
  | 0, c, widest => ([], widest, c)
  | fuel + 1, c, widest =>
    let c := c.skipWhile (· == ' ')
    let widest := max widest c.column
    if c.sees isBreak then
      let line := c.lineBreak
      let more := blockIndentation fuel line.2 widest
      (line.1 ++ more.1, more.2)
    else ([], widest, c)

/-- The place after blanks up to a column. -/
def indentTo (indent : Nat) : Nat → Cursor → Cursor
  | 0, c => c
  | fuel + 1, c =>
    if c.column < indent && c.sees (· == ' ') then indentTo indent fuel c.next else c

/-- The line breaks of empty lines, and the place after the indentation of the next line. -/
def blockBreaks (indent : Nat) : Nat → Cursor → List Char × Cursor
  | 0, c => ([], c)
  | fuel + 1, c =>
    let c := indentTo indent indent c
    if c.sees isBreak then
      let line := c.lineBreak
      let more := blockBreaks indent fuel line.2
      (line.1 ++ more.1, more.2)
    else ([], c)

/-- The lines of a block scalar after `text`; `breaks` are the line breaks that stand before the
next line. -/
def blockLines (isFolded : Bool) (chomping : Chomping) (indent : Nat) :
    Nat → Cursor → List Char → List Char → List Char × Cursor
  | 0, c, text, _ => (text, c)
  | fuel + 1, c, text, breaks =>
    let lead := c.sees fun ch => ch == ' ' || ch == '\t'
    let line := c.takeWhile fun ch => !isBreak ch
    let ending := line.2.lineBreak
    let text := text ++ breaks ++ line.1
    let after := blockBreaks indent (ending.2.rest.length + 1) ending.2
    if after.2.column = indent && after.2.rest ≠ [] then
      let nextLead := after.2.sees fun ch => ch == ' ' || ch == '\t'
      let joint :=
        if isFolded && ending.1 = ['\n'] && !lead && !nextLead then
          (if after.1 = [] then [' '] else [])
        else ending.1
      blockLines isFolded chomping indent fuel after.2 (text ++ joint) after.1
    else
      match chomping with
      | .strip => (text, after.2)
      | .clip => (text ++ ending.1, after.2)
      | .keep => (text ++ ending.1 ++ after.1, after.2)

/-- A block scalar from its indicator on, inside a collection of the given indentation. -/
def blockScalar (outer : Int) (c : Cursor) : Option (String × Cursor) := do
  let isFolded := c.sees (· == '>')
  let (chomping, increment, c) ← blockHeader c.next
  let least := (max (outer + 1) 1).toNat
  let fuel := c.rest.length + 1
  let (breaks, indent, c) :=
    match increment with
    | none =>
      let found := blockIndentation fuel c 0
      (found.1, max least found.2.1, found.2.2)
    | some n =>
      let indent := least + n - 1
      let found := blockBreaks indent fuel c
      (found.1, indent, found.2)
  if c.column = indent && c.rest ≠ [] then
    let content := blockLines isFolded chomping indent fuel c [] breaks
    return (String.ofList content.1, content.2)
  else
    return (String.ofList (if chomping = .keep then breaks else []), c)

end Drydock.Yaml
