import Drydock.CommandLine.Option

set_option autoImplicit false
set_option relaxedAutoImplicit false

/-!
What the command line asks for: to show the plan of a workflow, to run one, or to list workflows.
-/

namespace Drydock.CommandLine

/-- What is said about the trigger of a workflow. -/
structure TriggerOptions where
  event : String
  ref : String
  secrets : List String
  deriving DecidableEq, Repr

/-- How a list is written. -/
inductive ListFormat
  | text | json
  deriving DecidableEq, Repr

/-- A request. -/
inductive Request
  | dryrun (workflow : String) (trigger : TriggerOptions)
  | run (workflow : String) (trigger : TriggerOptions) (workingDir : String)
  | list (directory : String) (format : ListFormat) (pretty : Bool)
  | version
  deriving DecidableEq, Repr

/-- The path that a request reads. -/
def Request.path? : Request → Option String
  | .dryrun path _ => some path
  | .run path _ _ => some path
  | .list directory _ _ => some directory
  | .version => none

/-- The command of a request. -/
inductive CommandName
  | dryrun | run | list | version
  deriving DecidableEq, Repr

/-- The command of a name. -/
def CommandName.ofText? : String → Option CommandName
  | "dryrun" => some .dryrun
  | "run" => some .run
  | "list" => some .list
  | "version" => some .version
  | _ => none

/-- The options before the command. -/
def globalOptions : List OptionDecl := [⟨"--debug", none, false⟩]

/-- The options about the trigger. -/
def triggerOptions : List OptionDecl :=
  [⟨"--event", some 'e', true⟩, ⟨"--ref", some 'r', true⟩, ⟨"--secret", some 's', true⟩]

/-- The options of a command. -/
def CommandName.options : CommandName → List OptionDecl
  | .dryrun => triggerOptions
  | .run => ⟨"--working-dir", none, true⟩ :: triggerOptions
  | .list =>
    [⟨"--dir", some 'd', true⟩, ⟨"--format", some 'f', true⟩, ⟨"--pretty-print", none, false⟩]
  | .version => []

/-- The event where none is given. -/
def defaultEvent : String := "push"

/-- What options say about the trigger. -/
def TriggerOptions.ofScanned (s : Scanned) : TriggerOptions :=
  ⟨(s.value? "--event").getD defaultEvent, (s.value? "--ref").getD "", s.values "--secret"⟩

/-- The format of a name. -/
def ListFormat.ofText? : String → Option ListFormat
  | "text" => some .text
  | "json" => some .json
  | _ => none

/-- The request that a command makes with its options and arguments, if it has the right ones. -/
def CommandName.request? (name : CommandName) (defaultDirectory : String) (s : Scanned) :
    Option Request :=
  match name, s.arguments with
  | .dryrun, [workflow] => some (.dryrun workflow (.ofScanned s))
  | .run, [workflow] =>
    some (.run workflow (.ofScanned s) ((s.value? "--working-dir").getD "."))
  | .list, [] =>
    (ListFormat.ofText? ((s.value? "--format").getD "text")).map fun format =>
      .list ((s.value? "--dir").getD defaultDirectory) format (s.has "--pretty-print")
  | .version, [] => some .version
  | _, _ => none

/-- The options before the command, the command, and what follows it. -/
structure Invocation where
  debug : Bool
  command : CommandName
  arguments : List String
  deriving DecidableEq, Repr

/-- Reads arguments up to the command. -/
def Invocation.ofArguments? (args : List String) : Option Invocation :=
  match scan globalOptions false args with
  | some s =>
    match s.arguments with
    | [] => none
    | name :: rest =>
      (CommandName.ofText? name).map fun command => ⟨s.has "--debug", command, rest⟩
  | none => none

/-- Reads what follows the command. -/
def Invocation.request? (i : Invocation) (defaultDirectory : String) : Option Request :=
  (scan i.command.options true i.arguments).bind (i.command.request? defaultDirectory)

end Drydock.CommandLine
