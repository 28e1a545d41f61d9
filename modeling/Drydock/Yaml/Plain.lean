import Drydock.Yaml.Quoted

set_option autoImplicit false
set_option relaxedAutoImplicit false

/-!
Scalars without quotes. They end at a comment, at a colon before space, inside flow collections at
their punctuation, and at a line that is not indented enough.
-/

namespace Drydock.Yaml

/-- The punctuation of flow collections that may not follow a colon inside a scalar. -/
def isFlowClose (c : Char) : Bool :=
  c == ',' || c == '[' || c == ']' || c == '\x7b' || c == '\x7d'

/-- The characters of a plain scalar up to the next space or the end of the scalar. -/
def plainRun (flow : Bool) : List Char → List Char
  | [] => []
  | ch :: r =>
    if isSpace ch then []
    else if ch = ':' && endOr (fun d => isSpace d || (flow && isFlowClose d)) r.head? then []
    else if flow && (isFlowClose ch || ch = '?') then []
    else ch :: plainRun flow r

/-- The line breaks after the first one inside a plain scalar, and the blanks around them; nothing
if a mark between documents ends the scalar. -/
def plainBreaks : Nat → Cursor → Option (List Char) × Cursor
  | 0, c => (some [], c)
  | fuel + 1, c =>
    let c := c.skipWhile (· == ' ')
    if c.sees isBreak then
      let line := c.lineBreak
      if line.2.seesSeparator then (none, line.2)
      else
        let more := plainBreaks fuel line.2
        (more.1.map (line.1 ++ ·), more.2)
    else (some [], c)

/-- The space after a run of a plain scalar: its folded text, the place after it, and whether a line
ended. Nothing if the scalar ends. -/
def plainSpace (c : Cursor) : Option (List Char) × Cursor × Bool :=
  let blanks := c.takeWhile (· == ' ')
  if blanks.2.sees isBreak then
    let line := blanks.2.lineBreak
    if line.2.seesSeparator then (none, line.2, true)
    else
      let more := plainBreaks (line.2.rest.length + 1) line.2
      (more.1.map (folded line.1), more.2, true)
  else (some blanks.1, blanks.2, false)

/-- The runs of a plain scalar with the space between them. -/
def plainFrom (flow : Bool) (indent : Int) :
    Nat → Cursor → List Char → List Char → Bool → List Char × Cursor × Bool
  | 0, c, text, _, ended => (text, c, ended)
  | fuel + 1, c, text, space, ended =>
    let run := if c.sees (· == '#') then [] else plainRun flow c.rest
    if run = [] then (text, c, ended)
    else
      let text := text ++ space ++ run
      let after := plainSpace (c.forward run.length)
      match after.1 with
      | none | some [] => (text, after.2)
      | some space =>
        if after.2.1.sees (· == '#') || (!flow && (after.2.1.column : Int) < indent) then
          (text, after.2)
        else plainFrom flow indent fuel after.2.1 text space after.2.2

/-- A plain scalar, the place after it, and whether a line ended behind it. -/
def plainScalar (flow : Bool) (indent : Int) (c : Cursor) : String × Cursor × Bool :=
  let result := plainFrom flow indent (c.rest.length + 1) c [] [] false
  (String.ofList result.1, result.2)

end Drydock.Yaml
