import Drydock.Text.Digit

set_option autoImplicit false
set_option relaxedAutoImplicit false

/-!
Bytes written in base 64. Characters outside the alphabet are passed over; a group of characters
that is not full has to be closed by equals signs, behind which nothing is read.
-/

namespace Drydock.Text.Base64

/-- The value of a character of the alphabet. -/
def value? (c : Char) : Option Nat :=
  if 'A' ≤ c && c ≤ 'Z' then some (c.toNat - 'A'.toNat)
  else if 'a' ≤ c && c ≤ 'z' then some (c.toNat - 'a'.toNat + 26)
  else if isAsciiDigit c then some (c.toNat - '0'.toNat + 52)
  else if c = '+' then some 62
  else if c = '/' then some 63
  else none

/-- The byte that a character completes as the one of its place in a group, from the value of the
character before it and its own. -/
def byte (place before value : Nat) : List UInt8 :=
  match place with
  | 0 => []
  | 1 => [UInt8.ofNat (before * 4 + value / 16)]
  | 2 => [UInt8.ofNat (before * 16 + value / 4)]
  | _ => [UInt8.ofNat (before * 64 + value)]

/-- The bytes that characters write from a place in a group on; `before` is the value of the last
character and `signs` the number of equals signs behind it. -/
def decodeFrom (place before signs : Nat) : List Char → Option (List UInt8)
  | [] => if place = 0 then some [] else none
  | c :: r =>
    if c = '=' then
      if 2 ≤ place then
        if 4 ≤ place + (signs + 1) then some [] else decodeFrom place before (signs + 1) r
      else decodeFrom place before signs r
    else
      match value? c with
      | none => decodeFrom place before signs r
      | some v => (decodeFrom ((place + 1) % 4) v 0 r).map (byte place before v ++ ·)

/-- The bytes that a text writes. -/
def decode? (cs : List Char) : Option (List UInt8) :=
  decodeFrom 0 0 0 cs

end Drydock.Text.Base64
