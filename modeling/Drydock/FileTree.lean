import Drydock.FileFault
import Drydock.Path
import Drydock.Text.Sorted

set_option autoImplicit false
set_option relaxedAutoImplicit false

/-!
The files below a directory. Paths are walked name by name, so that a path through something that
is no directory leads nowhere, even if it comes back.
-/

namespace Drydock

/-- The most bytes of a name. -/
def longestName : Nat := 255

/-- The most bytes of a path. -/
def longestPath : Nat := 4095

/-- What stands at a place. -/
inductive FileNode
  | file (bytes : List UInt8)
  | directory
  deriving DecidableEq, Repr

/-- Files and directories, each under the names that lead to it from the root. -/
structure FileTree where
  entries : List (List String × FileNode)
  deriving DecidableEq, Repr

namespace FileTree

/-- No files. -/
def empty : FileTree := ⟨[]⟩

/-- Puts something at a place. -/
def insert (t : FileTree) (place : List String) (node : FileNode) : FileTree :=
  ⟨(place, node) :: t.entries.filter fun e => e.1 ≠ place⟩

/-- What stands at a place; the directories that lead to something need no entry. -/
def at? (t : FileTree) (place : List String) : Option FileNode :=
  match t.entries.lookup place with
  | some node => some node
  | none =>
    if place = [] ∨ t.entries.any (fun e => place.isPrefixOf e.1) then some .directory else none

/-- Walks from a place along names; the second part of the answer is what is found there. The text
is the path that is refused. -/
def walk (t : FileTree) (text : String) : List String → List String →
    Except FileFault (List String × FileNode)
  | place, names =>
    match t.at? place with
    | none => .error (.notFound text)
    | some node =>
      match names with
      | [] => .ok (place, node)
      | name :: rest =>
        if node ≠ .directory then .error (.notDirectory text)
        else if longestName < name.utf8ByteSize then .error (.nameTooLong text)
        else walk t text (if name = ".." then place.dropLast else place ++ [name]) rest
termination_by _ names => names.length

/-- What stands at a path, seen from a directory. -/
def find (t : FileTree) (here p : Path) : Except FileFault (List String × FileNode) :=
  if p.text.toList.contains (Char.ofNat 0) then .error .zeroInPath
  else if longestPath < p.text.utf8ByteSize then .error (.nameTooLong p.text)
  else t.walk p.text [] (here.join p).names

/-- The bytes of a file. -/
def read (t : FileTree) (here p : Path) : Except FileFault (List UInt8) :=
  match t.find here p with
  | .ok (_, .file bytes) => .ok bytes
  | .ok (_, .directory) => .error (.isDirectory p.text)
  | .error fault => .error fault

/-- There is something at a path. -/
def isPresent (t : FileTree) (here p : Path) : Bool :=
  (t.find here p).toOption.isSome

/-- What stands at a path, if anything does; a name that is too long keeps from telling. -/
def look (t : FileTree) (here p : Path) : Except FileFault (Option FileNode) :=
  match t.find here p with
  | .ok (_, node) => .ok (some node)
  | .error (.nameTooLong path) => .error (.nameTooLong path)
  | .error _ => .ok none

/-- Whether there is a file at a path. -/
def isFile (t : FileTree) (here p : Path) : Except FileFault Bool :=
  (t.look here p).map fun found =>
    match found with
    | some (.file _) => true
    | _ => false

/-- Whether there is a directory at a path. -/
def isDirectory (t : FileTree) (here p : Path) : Except FileFault Bool :=
  (t.look here p).map (· == some .directory)

/-- The names in a directory, in order. -/
def names (t : FileTree) (here p : Path) : List String :=
  match t.find here p with
  | .ok (place, .directory) =>
    Text.sortedDistinct (t.entries.filterMap fun e =>
      if place.isPrefixOf e.1 then e.1[place.length]? else none)
  | _ => []

end FileTree

end Drydock
