import Drydock.Text.Search

set_option autoImplicit false
set_option relaxedAutoImplicit false

/-!
File paths. Repeated slashes and single points mean nothing; two points stay, because what they
lead to depends on the files, until a path is made absolute.
-/

namespace Drydock

/-- A path: the number of its leading slashes and its names. -/
structure Path where
  slashes : Nat
  names : List String
  deriving DecidableEq, Repr

namespace Path

open Text (splitAtChar)

/-- How many leading slashes count: two are kept as two, and more are one. -/
def rootSlashes (cs : List Char) : Nat :=
  match (cs.takeWhile (· = '/')).length with
  | 0 => 0
  | 2 => 2
  | _ => 1

/-- The path that a text writes. -/
def parse (text : String) : Path where
  slashes := rootSlashes text.toList
  names := ((splitAtChar '/' text.toList).filter fun n => n ≠ [] ∧ n ≠ ['.']).map String.ofList

/-- The path as it is written; without slashes and names it is a point. -/
def text (p : Path) : String :=
  if p.slashes = 0 ∧ p.names = [] then "."
  else String.ofList (List.replicate p.slashes '/') ++ "/".intercalate p.names

/-- A path continued by another; one that starts with a slash starts anew. -/
def join (p q : Path) : Path :=
  if q.slashes = 0 then ⟨p.slashes, p.names ++ q.names⟩ else q

/-- A path continued by what a text writes. -/
def child (p : Path) (text : String) : Path :=
  p.join (parse text)

/-- The last name, or nothing. -/
def name (p : Path) : String :=
  p.names.getLast?.getD ""

/-- The last name from its last point on, if the point is inside it. -/
def suffix (p : Path) : String :=
  match Text.cutAtLast? '.' p.name.toList with
  | some (_ :: _, rest@(_ :: _)) => String.ofList ('.' :: rest)
  | _ => ""

/-- Two points take the name before them away; at the root they mean nothing. -/
def foldParents (slashes : Nat) (names : List String) : List String :=
  names.foldl (fun acc n =>
    if n = ".." ∧ (slashes ≠ 0 ∨ acc ≠ []) ∧ acc.getLast? ≠ some ".." then acc.dropLast
    else acc ++ [n]) []

/-- The path seen from a directory, without two points in it. -/
def absolute (directory p : Path) : Path :=
  let q := directory.join p
  ⟨q.slashes, foldParents q.slashes q.names⟩

/-- An absolute path with a single leading slash. -/
def real (p : Path) : Path :=
  { p with slashes := 1 }

end Path

end Drydock
