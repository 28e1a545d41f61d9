import Drydock.Reference

set_option autoImplicit false
set_option relaxedAutoImplicit false

/-!
Texts with places to fill in. A place opens at the leftmost unread opening mark and closes at the
nearest closing mark after it; one that holds a reference is filled, and any other stays as it is
written. What is filled in is not read again.
-/

namespace Drydock.Template

open Text (cutAt? eq_of_cutAt?)

/-- The mark that opens a place. -/
def opening : List Char := ['$', '\x7b', '\x7b']

/-- The mark that closes a place. -/
def closing : List Char := ['\x7d', '\x7d']

/-- A part of a text: plain, or a place that holds a reference. -/
inductive Piece
  | plain (text : List Char)
  | place (inside : List Char) (reference : Reference)
  deriving DecidableEq, Repr

/-- The part that a place with this inside makes. -/
def Piece.ofInside (inside : List Char) : Piece :=
  match Reference.parse? inside with
  | some r => .place inside r
  | none => .plain (opening ++ inside ++ closing)

/-- The part as it is written. -/
def Piece.source : Piece → List Char
  | .plain text => text
  | .place inside _ => opening ++ inside ++ closing

/-- The part with a reference replaced by what it stands for. -/
def Piece.fill (value : Reference → String) : Piece → List Char
  | .plain text => text
  | .place _ r => (value r).toList

/-- The parts of a text in order. -/
def pieces (cs : List Char) : List Piece :=
  match _opened : cutAt? opening cs with
  | none => [.plain cs]
  | some (before, rest) =>
    match _closed : cutAt? closing rest with
    | none => [.plain cs]
    | some (inside, after) => .plain before :: Piece.ofInside inside :: pieces after
termination_by cs.length
decreasing_by
  have h₁ := congrArg List.length (eq_of_cutAt? _opened)
  have h₂ := congrArg List.length (eq_of_cutAt? _closed)
  simp only [List.length_append, opening, closing, List.length_cons] at h₁ h₂
  omega

/-- A text with its references replaced by what they stand for. -/
def fill (value : Reference → String) (text : String) : String :=
  String.ofList ((pieces text.toList).flatMap (Piece.fill value))

theorem source_ofInside (inside : List Char) :
    (Piece.ofInside inside).source = opening ++ inside ++ closing := by
  unfold Piece.ofInside
  split <;> rfl

theorem flatMap_source_pieces (cs : List Char) : (pieces cs).flatMap Piece.source = cs := by
  fun_induction pieces cs with
  | case1 => simp [Piece.source]
  | case2 => simp [Piece.source]
  | case3 cs before rest opened inside after closed ih =>
    rw [eq_of_cutAt? opened, eq_of_cutAt? closed, List.flatMap_cons, List.flatMap_cons, ih,
      source_ofInside]
    simp [Piece.source]

end Drydock.Template
