import Drydock.Action.Metadata
import Drydock.FileTree
import Drydock.Text.Lines
import Drydock.Text.Utf8

set_option autoImplicit false
set_option relaxedAutoImplicit false

/-!
The files of a repository that matter here: its workflows, and the metadata of actions. Each reading
tells faults that are reported from those that break the reader.
-/

namespace Drydock

/-- Why a file holds no document of its kind. -/
inductive ReadFault
  | text (fault : TextFault)
  | document (fault : DocumentFault)

namespace DocumentFault

/-- The fault is one of the reader itself and not of the document. -/
def breaksReader : DocumentFault → Bool
  | .unreadable fault => fault.breaksReader
  | _ => false

/-- What is said before the places that do not fit. -/
def misfitLabel : String := "schema errors at "

/-- The wording of a fault of a document of a kind. -/
def message (what : String) : DocumentFault → String
  | .unreadable fault => (if fault.breaksReader then "" else "invalid YAML: ") ++ fault.reason
  | .notMapping => s!"{what} must be a mapping"
  | .misfit places => misfitLabel ++ ", ".intercalate (placeTexts places)

end DocumentFault

namespace ReadFault

/-- The fault is one of the reader itself and not of the file. -/
def breaksReader : ReadFault → Bool
  | .text (.file fault) => fault.breaksReader
  | .text (.undecodable ..) => true
  | .document fault => fault.breaksReader

/-- The wording of a fault in a kind of document. -/
def message (what : String) : ReadFault → String
  | .text (.file fault) =>
    (if fault.breaksReader then "" else "cannot read file: ") ++ fault.message
  | .text (.undecodable piece bytes) => piece.refusal bytes
  | .document fault => fault.message what

/-- The wording of a fault that is reported, for a source and a kind of document; none for a fault
that breaks the reader. -/
def report? (source what : String) (fault : ReadFault) : Option String :=
  if fault.breaksReader then none else some s!"{source}: {fault.message what}"

end ReadFault

/-- Why the metadata of an action are not had: there are none that can be used, their file cannot
be looked for, or reading them breaks the reader. -/
inductive MetadataFault
  | refused (message : String)
  | file (fault : FileFault)
  | broken (fault : ReadFault)

namespace FileTree

/-- The text of a file; newlines are line feeds. -/
def readText (t : FileTree) (here p : Path) : Except TextFault String :=
  match t.read here p with
  | .error fault => .error (.file fault)
  | .ok bytes =>
    match Text.Utf8.decode bytes with
    | .ok cs => .ok (String.ofList (Text.unifyNewlines cs))
    | .error piece => .error (.undecodable piece bytes)

/-- The workflow in a file. -/
def readWorkflow (t : FileTree) (here p : Path) : Except ReadFault Workflow :=
  match t.readText here p with
  | .error fault => .error (.text fault)
  | .ok text => (Workflow.parse text).mapError .document

/-- The endings of workflow files. -/
def workflowSuffixes : List String := [".yml", ".yaml"]

/-- The workflow files in a directory, in order. -/
def workflowFiles (t : FileTree) (here directory : Path) : Except FileFault (List Path) := do
  if ← t.isDirectory here directory then
    ((t.names here directory).map directory.child).filterM fun p => do
      return (← t.isFile here p) && p.suffix ∈ workflowSuffixes
  else return []

/-- Where a repository keeps its workflows. -/
def workflowDirectory : String := ".github/workflows"

/-- The workflow files of a repository. -/
def findWorkflows (t : FileTree) (here repository : Path) : Except FileFault (List Path) :=
  t.workflowFiles here (repository.child workflowDirectory)

/-- The files that may hold the metadata of an action; the first that is there counts. -/
def metadataNames : List String := ["action.yml", "action.yaml"]

/-- The file of the metadata in a directory. -/
def metadataFile? (t : FileTree) (here directory : Path) : Except FileFault (Option Path) :=
  (metadataNames.map directory.child).findM? (t.isFile here)

/-- The wording for a directory without metadata. -/
def noMetadata (directory : Path) : String :=
  let names := ", ".intercalate metadataNames
  s!"action metadata not found in {directory.text} (looked for {names})"

/-- The metadata in a file. -/
def readMetadata (t : FileTree) (here p : Path) : Except ReadFault ActionMetadata :=
  match t.readText here p with
  | .error fault => .error (.text fault)
  | .ok text => (ActionMetadata.parse text).mapError .document

/-- The metadata of the action in a directory. -/
def actionMetadata (t : FileTree) (here directory : Path) : Except MetadataFault ActionMetadata :=
  match t.metadataFile? here directory with
  | .error fault => .error (.file fault)
  | .ok none => .error (.refused (noMetadata directory))
  | .ok (some p) =>
    (t.readMetadata here p).mapError fun fault =>
      match fault.report? p.text "action metadata" with
      | some message => .refused message
      | none => .broken fault

end FileTree

end Drydock
