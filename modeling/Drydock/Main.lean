import Drydock.CommandLine.Response
import Drydock.Docker

set_option autoImplicit false
set_option relaxedAutoImplicit false

/-!
The command line. It reads the files and the variables that a request needs, prints the answer, and
ends with its exit code. It starts no other program, so that each one counts as missing.
-/

namespace Drydock.CommandLine

/-- The path that arguments ask to be read. -/
def pathOf? (args : List String) : Option Path := do
  let i ← Invocation.ofArguments? args
  let r ← i.request? FileTree.workflowDirectory
  Path.parse <$> r.path?

/-- The variables in a block of assignments, each of which ends in a zero byte. -/
def environmentOf (block : List UInt8) : Bindings String :=
  .ofList ((Text.splitAtChar '\x00' (Text.Utf8.decodeLossy block)).filterMap fun cs =>
    (Text.cutAt? ['='] cs).map fun e => (String.ofList e.1, String.ofList e.2))

/-- An engine whose program is missing. -/
def missingEngine (binary : String) : Engine where
  refuses _ _ := some (Docker.explain "" (.missing binary)).text
  identifier _ := ""
  behaviour _ _ := .idle

/-- Surroundings without other programs. -/
def surroundings (files : FileTree) (currentDir : Path) (environ : Bindings String) :
    Surroundings where
  files := files
  currentDir := currentDir
  environ := environ
  checkout directory := ((Git.checkout (some directory)).hold [.missing]).2.mapError Failure.text
  engine := missingEngine ((Settings.ofEnvironment environ).toOption.getD .standard).dockerBinary
  clone c := ((Git.clone false c.url c.ref c.destination).hold [.missing]).2
  scratch := .error (.notFound "tmp")

/-- The file at a path, put into a tree. -/
def withFile (t : FileTree) (p : Path) : IO FileTree := do
  try
    return t.insert p.names (.file (← IO.FS.readBinFile p.text).toList)
  catch _ => return t

/-- The file at a path, or the files in the directory there. -/
def readFiles (p : Path) : IO FileTree := do
  let t ← withFile .empty p
  try
    let place ← IO.FS.realPath p.text
    let mut t := t.insert p.names .directory
    for entry in ← place.readDir do
      t ← withFile t (p.child entry.fileName)
    return t
  catch _ => return t

/-- The bytes of a file, none if it cannot be read. -/
def bytesOf (path : String) : IO (List UInt8) := do
  try
    return (← IO.FS.readBinFile path).toList
  catch _ => return []

end Drydock.CommandLine

open Drydock CommandLine in
/-- Answers the arguments. -/
def main (args : List String) : IO UInt32 := do
  let here := Path.parse (← IO.currentDir).toString
  let files ← match pathOf? args with
    | some p => readFiles (Path.absolute here p)
    | none => pure .empty
  let s := surroundings files here (environmentOf (← bytesOf "/proc/self/environ"))
  let answered := s.respond args
  match answered with
  | .ok r =>
    IO.print (Console.text r.output)
    IO.eprint (Console.text r.errors)
  | .error e => IO.eprintln e.message
  return (exitStatus answered).toUInt32
