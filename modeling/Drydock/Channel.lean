import Drydock.Assignments
import Drydock.FileFault
import Drydock.Text.Utf8

set_option autoImplicit false
set_option relaxedAutoImplicit false

/-!
The two files through which steps hand values back: one for variables, one for outputs. They stand
in a directory of their own. What steps write is collected after each step, and the files are left
empty.
-/

namespace Drydock

/-- What a file holds, if there is one. -/
inductive FileState
  | absent
  | holds (bytes : List UInt8)
  | directory
  deriving DecidableEq, Repr

namespace FileState

/-- There is a file or a directory. -/
def isPresent : FileState → Bool
  | .absent => false
  | _ => true

/-- A file that is absent is made, with nothing in it. -/
def ensure : FileState → FileState
  | .absent => .holds []
  | s => s

/-- The text of bytes: malformed parts are replaced, and newlines are line feeds. -/
def textOf (bytes : List UInt8) : String :=
  String.ofList (Text.unifyNewlines (Text.Utf8.decodeLossy bytes))

/-- The text of a file that is well formed, none if it is absent; newlines are line feeds. -/
def read (path : String) : FileState → Except TextFault (Option String)
  | .absent => .ok none
  | .holds bytes =>
    match Text.Utf8.decode bytes with
    | .ok cs => .ok (some (String.ofList (Text.unifyNewlines cs)))
    | .error piece => .error (.undecodable piece bytes)
  | .directory => .error (.file (.isDirectory path))

/-- Overwrites a file. -/
def write (path : String) (bytes : List UInt8) : FileState → Except FileFault FileState
  | .directory => .error (.isDirectory path)
  | _ => .ok (.holds bytes)

/-- Writes after what a file holds. -/
def append (path : String) (bytes : List UInt8) : FileState → Except FileFault FileState
  | .absent => .ok (.holds bytes)
  | .holds old => .ok (.holds (old ++ bytes))
  | .directory => .error (.isDirectory path)

/-- Removes a file. -/
def remove (path : String) : FileState → Except FileFault FileState
  | .absent => .error (.notFound path)
  | .holds _ => .ok .absent
  | .directory => .error (.isDirectory path)

/-- Takes the assignments out of a file: what is left of a file that was read is empty. -/
def drain (path : String) : FileState → Except FileFault (FileState × Bindings String)
  | .absent => .ok (.absent, ∅)
  | .holds bytes => .ok (.holds [], Assignments.parse (textOf bytes))
  | .directory => .error (.isDirectory path)

end FileState

/-- The file for variables, or that for outputs. -/
inductive Slot
  | env | output
  deriving DecidableEq, Repr

/-- The name of a file. -/
def Slot.fileName : Slot → String
  | .env => "GITHUB_ENV"
  | .output => "GITHUB_OUTPUT"

/-- The two files and their directory. -/
structure Channel where
  directory : String
  env : FileState
  output : FileState
  deriving DecidableEq, Repr

namespace Channel

/-- The refusal to use files that are not there. -/
def notOpen : String := "side channel is not open"

/-- Two empty files in a directory. -/
def opened (directory : String) : Channel := ⟨directory, .holds [], .holds []⟩

/-- The path of a file. -/
def path (c : Channel) (slot : Slot) : String :=
  c.directory ++ "/" ++ slot.fileName

/-- The state of a file. -/
def get (c : Channel) : Slot → FileState
  | .env => c.env
  | .output => c.output

/-- Puts a file into a state. -/
def set (c : Channel) (slot : Slot) (state : FileState) : Channel :=
  match slot with
  | .env => { c with env := state }
  | .output => { c with output := state }

/-- Makes the files that are absent. -/
def ensureFiles (c : Channel) : Channel :=
  { c with env := c.env.ensure, output := c.output.ensure }

/-- Overwrites a file. -/
def write (c : Channel) (slot : Slot) (bytes : List UInt8) : Except FileFault Channel :=
  ((c.get slot).write (c.path slot) bytes).map (c.set slot)

/-- Writes after what a file holds. -/
def append (c : Channel) (slot : Slot) (bytes : List UInt8) : Except FileFault Channel :=
  ((c.get slot).append (c.path slot) bytes).map (c.set slot)

/-- Removes a file. -/
def remove (c : Channel) (slot : Slot) : Except FileFault Channel :=
  ((c.get slot).remove (c.path slot)).map (c.set slot)

/-- Replaces a file by a directory. -/
def replaceByDirectory (c : Channel) (slot : Slot) : Except FileFault Channel :=
  (c.remove slot).map fun c => c.set slot .directory

/-- Takes the assignments out of a file. -/
def drain (c : Channel) (slot : Slot) : Channel × Except FileFault (Bindings String) :=
  match (c.get slot).drain (c.path slot) with
  | .ok (state, values) => (c.set slot state, .ok values)
  | .error fault => (c, .error fault)

/-- What steps hand back. -/
structure Collected where
  env : Bindings String
  outputs : Bindings String
  deriving DecidableEq, Repr

/-- Takes the assignments out of both files, those for variables first. -/
def collect (c : Channel) : Channel × Except FileFault Collected :=
  match c.drain .env with
  | (c, .error fault) => (c, .error fault)
  | (c, .ok env) =>
    match c.drain .output with
    | (c, .error fault) => (c, .error fault)
    | (c, .ok outputs) => (c, .ok ⟨env, outputs⟩)

end Channel

end Drydock
