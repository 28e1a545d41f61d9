import Drydock.Yaml.Cursor
import Drydock.Yaml.Token

set_option autoImplicit false
set_option relaxedAutoImplicit false

/-!
Scalars in single and double quotes. Line breaks inside them fold: one becomes a blank, of several
the first is dropped. Escapes exist in double quotes alone.
-/

namespace Drydock.Yaml

/-- What a character after a backslash stands for. -/
def escapeChar? (c : Char) : Option Char :=
  match c with
  | '0' => some (Char.ofNat 0)
  | 'a' => some (Char.ofNat 7)
  | 'b' => some (Char.ofNat 8)
  | 't' => some '\t'
  | '\t' => some '\t'
  | 'n' => some '\n'
  | 'v' => some (Char.ofNat 11)
  | 'f' => some (Char.ofNat 12)
  | 'r' => some '\r'
  | 'e' => some (Char.ofNat 27)
  | ' ' => some ' '
  | '"' => some '"'
  | '\\' => some '\\'
  | '/' => some '/'
  | 'N' => some (Char.ofNat 0x85)
  | '_' => some (Char.ofNat 0xA0)
  | 'L' => some (Char.ofNat 0x2028)
  | 'P' => some (Char.ofNat 0x2029)
  | _ => none

/-- How many hexadecimal digits follow a letter after a backslash. -/
def escapeWidth? (c : Char) : Option Nat :=
  match c with
  | 'x' => some 2
  | 'u' => some 4
  | 'U' => some 8
  | _ => none

/-- The value of a hexadecimal digit. -/
def hexValue? (c : Char) : Option Nat :=
  if '0' ≤ c && c ≤ '9' then some (c.toNat - '0'.toNat)
  else if 'a' ≤ c && c ≤ 'f' then some (c.toNat - 'a'.toNat + 10)
  else if 'A' ≤ c && c ≤ 'F' then some (c.toNat - 'A'.toNat + 10)
  else none

/-- The number that hexadecimal digits write. -/
def hexNumber? (cs : List Char) : Option Nat :=
  cs.foldlM (fun n c => (hexValue? c).map (n * 16 + ·)) 0

/-- Why a quoted scalar cannot be read. -/
inductive QuoteFault
  | malformed
  /-- An escape with a number beyond the code points. -/
  | code (n : Nat)
  deriving DecidableEq, Repr

/-- What is absent makes a scalar malformed. -/
def orMalformed {α : Type} : Option α → Except QuoteFault α
  | some a => .ok a
  | none => .error .malformed

/-- The character of a code written with a number of hexadecimal digits. Surrogates are no
characters and are replaced. -/
def codePoint (width : Nat) (c : Cursor) : Except QuoteFault Char := do
  let digits := c.rest.take width
  let n ← orMalformed (hexNumber? digits)
  if digits.length < width then .error .malformed
  else if 0x10FFFF < n then .error (.code n)
  else return if n.isValidChar then Char.ofNat n else Char.ofNat 0xFFFD

/-- Line breaks and the blanks that lines begin with. A mark between documents must not stand at the
start of a line. -/
def quotedBreaks : Nat → Cursor → Option (List Char × Cursor)
  | 0, _ => none
  | fuel + 1, c =>
    if c.seesSeparator then none
    else
      let c := c.skipWhile fun ch => ch == ' ' || ch == '\t'
      if c.sees isBreak then do
        let line := c.lineBreak
        let more ← quotedBreaks fuel line.2
        return (line.1 ++ more.1, more.2)
      else some ([], c)

/-- Folds one line break and those after it. -/
def folded (first more : List Char) : List Char :=
  if first ≠ ['\n'] then first ++ more else if more = [] then [' '] else more

/-- The characters of a quoted scalar up to its closing quote. -/
def quotedFrom (double : Bool) : Nat → Cursor → Except QuoteFault (List Char × Cursor)
  | 0, _ => .error .malformed
  | fuel + 1, c =>
    match c.rest with
    | [] => .error .malformed
    | ch :: r =>
      if ch = ' ' || ch = '\t' || isBreak ch then
        let run := c.takeWhile fun ch => ch == ' ' || ch == '\t'
        if run.2.sees isBreak then do
          let line := run.2.lineBreak
          let more ← orMalformed (quotedBreaks fuel line.2)
          let tail ← quotedFrom double fuel more.2
          return (folded line.1 more.1 ++ tail.1, tail.2)
        else do
          let tail ← quotedFrom double fuel run.2
          return (run.1 ++ tail.1, tail.2)
      else if double then
        if ch = '"' then .ok ([], c.next)
        else if ch = '\\' then do
          let e ← orMalformed r.head?
          match escapeChar? e, escapeWidth? e with
          | some x, _ =>
            let tail ← quotedFrom double fuel (c.forward 2)
            return (x :: tail.1, tail.2)
          | none, some width =>
            let x ← codePoint width (c.forward 2)
            let tail ← quotedFrom double fuel (c.forward (2 + width))
            return (x :: tail.1, tail.2)
          | none, none =>
            if isBreak e then
              let more ← orMalformed (quotedBreaks fuel c.next.lineBreak.2)
              let tail ← quotedFrom double fuel more.2
              return (more.1 ++ tail.1, tail.2)
            else .error .malformed
        else do
          let tail ← quotedFrom double fuel c.next
          return (ch :: tail.1, tail.2)
      else if ch = '\'' then
        if r.head? = some '\'' then do
          let tail ← quotedFrom double fuel (c.forward 2)
          return ('\'' :: tail.1, tail.2)
        else .ok ([], c.next)
      else do
        let tail ← quotedFrom double fuel c.next
        return (ch :: tail.1, tail.2)

/-- A quoted scalar, from its opening quote on. -/
def quotedScalar (c : Cursor) : Option (Token × Cursor) :=
  match quotedFrom (c.sees (· == '"')) (c.rest.length + 1) c.next with
  | .ok (text, c) => some (.scalar false (String.ofList text), c)
  | .error (.code n) => some (.obstacle (.code n), c)
  | .error .malformed => none

end Drydock.Yaml
