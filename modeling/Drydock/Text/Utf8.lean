import Drydock.Text.Quoted

set_option autoImplicit false
set_option relaxedAutoImplicit false

/-!
Bytes and characters in UTF-8. Malformed input is cut into maximal parts of well-formed sequences,
so that one replacement character stands for each of them.
-/

namespace Drydock.Text.Utf8

/-- Why bytes do not form a character. -/
inductive Malformation
  | startByte | continuationByte | endOfData
  deriving DecidableEq, Repr

/-- What a first byte announces: how many bytes follow, the least and greatest value of the next
one, and the bits it brings. -/
structure Lead where
  owed : Nat
  low : Nat
  high : Nat
  bits : Nat

/-- The announcement of a first byte, if it can begin a character. -/
def lead? (b : Nat) : Option Lead :=
  if b < 0x80 then some ⟨0, 0x80, 0xBF, b⟩
  else if b < 0xC2 then none
  else if b < 0xE0 then some ⟨1, 0x80, 0xBF, b - 0xC0⟩
  else if b = 0xE0 then some ⟨2, 0xA0, 0xBF, 0⟩
  else if b = 0xED then some ⟨2, 0x80, 0x9F, 13⟩
  else if b < 0xF0 then some ⟨2, 0x80, 0xBF, b - 0xE0⟩
  else if b = 0xF0 then some ⟨3, 0x90, 0xBF, 0⟩
  else if b < 0xF4 then some ⟨3, 0x80, 0xBF, b - 0xF0⟩
  else if b = 0xF4 then some ⟨3, 0x80, 0x8F, 4⟩
  else none

/-- Reads the owed continuation bytes; the second part counts the bytes that fitted. -/
def continuation : Nat → Nat → Nat → Nat → List UInt8 → Except Malformation Nat × Nat
  | 0, _, _, bits, _ => (.ok bits, 0)
  | _ + 1, _, _, _, [] => (.error .endOfData, 0)
  | owed + 1, low, high, bits, b :: r =>
    if low ≤ b.toNat && b.toNat ≤ high then
      let next := continuation owed 0x80 0xBF (bits * 64 + (b.toNat - 0x80)) r
      (next.1, next.2 + 1)
    else (.error .continuationByte, 0)

/-- The character, or the malformed part, that begins at a byte, and how many bytes it takes after
that one. -/
def piece (b : UInt8) (r : List UInt8) : Except Malformation Char × Nat :=
  match lead? b.toNat with
  | none => (.error .startByte, 0)
  | some l =>
    let tail := continuation l.owed l.low l.high l.bits r
    (tail.1.map Char.ofNat, tail.2)

/-- A character or a malformed part, with the offset and number of its bytes. -/
structure Piece where
  offset : Nat
  width : Nat
  content : Except Malformation Char

/-- All pieces of the bytes from an offset on. -/
def piecesFrom (offset : Nat) : List UInt8 → List Piece
  | [] => []
  | b :: r =>
    let p := piece b r
    ⟨offset, p.2 + 1, p.1⟩ :: piecesFrom (offset + (p.2 + 1)) (r.drop p.2)
termination_by bytes => bytes.length
decreasing_by
  simp only [List.length_cons, List.length_drop]
  omega

/-- Every malformed part becomes one replacement character. -/
def decodeLossy (bytes : List UInt8) : List Char :=
  (piecesFrom 0 bytes).map fun p =>
    match p.content with
    | .ok c => c
    | .error _ => Char.ofNat 0xFFFD

/-- All characters, or the first malformed piece. -/
def decode (bytes : List UInt8) : Except Piece (List Char) :=
  (piecesFrom 0 bytes).mapM fun p =>
    match p.content with
    | .ok c => .ok c
    | .error _ => .error p

/-- The wording of a malformation. -/
def Malformation.reason : Malformation → String
  | .startByte => "invalid start byte"
  | .continuationByte => "invalid continuation byte"
  | .endOfData => "unexpected end of data"

/-- The refusal of bytes because of a malformed piece. One byte is named; of several, only the
offsets are. -/
def Piece.refusal (p : Piece) (bytes : List UInt8) : String :=
  let reason := match p.content with
    | .ok _ => ""
    | .error m => m.reason
  let place :=
    if p.width = 1 then
      let byte := String.ofList (hexDigits 2 (((bytes[p.offset]?).map UInt8.toNat).getD 0))
      s!"byte 0x{byte} in position {p.offset}"
    else s!"bytes in position {p.offset}-{p.offset + p.width - 1}"
  s!"'utf-8' codec can't decode {place}: {reason}"

/-- The bytes of a text. -/
def encode (s : String) : List UInt8 :=
  s.toUTF8.toList

end Drydock.Text.Utf8
