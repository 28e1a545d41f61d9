import Drydock.CommandLine.Request
import Drydock.Run.Execution
import Drydock.Value.Json

set_option autoImplicit false
set_option relaxedAutoImplicit false

/-!
What a request is answered with: an exit code, what is printed, and what happened on the engine. The
code is zero exactly when all went well; two is for requests that cannot be understood.
-/

namespace Drydock.CommandLine

/-- All that a request is answered from. -/
structure Surroundings where
  files : FileTree
  currentDir : Path
  environ : Bindings String
  /-- The checkout in a directory, or why there is none. -/
  checkout : String → Except String Context.Checkout
  engine : Engine
  clone : Clone → Except Git.CloneFault Unit
  /-- Where the files of a channel go. -/
  scratch : Except FileFault String

/-- An answer. -/
structure Response where
  exitCode : Nat
  /-- Whether debugging was asked for, once that is known. -/
  debug : Option Bool
  /-- The settings of the engine, once it is used. -/
  engineSettings : Option Settings
  events : List Event
  warnings : List Warning
  output : List String
  errors : List String

/-- What ends a request without an answer. -/
inductive Escape
  | settings (fault : SettingsFault)
  | plan (fault : PlanFault)
  | read (fault : ReadFault)
  | stop (reason : Stop)

/-- What can be said of an escape. -/
def Escape.message : Escape → String
  | .settings fault => fault.message
  | .plan fault => fault.message
  | .read fault => fault.message "workflow"
  | .stop reason => reason.message

/-- The exit status of the program after a request: what ends a request without an answer ends the
program as an error. -/
def exitStatus : Except Escape Response → Nat
  | .ok r => r.exitCode
  | .error _ => 1

namespace Response

/-- The exit code of requests that cannot be understood. -/
def usageCode : Nat := 2

/-- The exit code of a run that was interrupted. -/
def interruptedCode : Nat := 130

/-- The answer to a request that cannot be understood. -/
def usage (debug : Option Bool) : Response := ⟨usageCode, debug, none, [], [], [], []⟩

/-- An answer that only prints. -/
def printed (debug : Bool) (output : List String) : Response :=
  ⟨0, some debug, none, [], [], output, []⟩

/-- An answer that only complains. -/
def refused (debug : Bool) (title message suggestion : String) : Response :=
  ⟨1, some debug, none, [], [], [], Console.error title message [] suggestion⟩

end Response

/-- What stops a request on its way: an answer, or something that is none. -/
inductive Halt
  | answer (r : Response)
  | escape (e : Escape)

namespace Surroundings

/-- The workflow in a file. -/
def workflow (s : Surroundings) (debug : Bool) (path : String) : Except Halt Workflow :=
  let p := Path.parse path
  (s.files.readWorkflow s.currentDir p).mapError fun fault =>
    match fault.report? p.text "workflow" with
    | some message => .answer (.refused debug "Failed to load workflow" message "")
    | none => .escape (.read fault)

/-- The data of conditions for a checkout and what is said about the trigger. -/
def context (s : Surroundings) (debug : Bool) (t : TriggerOptions) (directory : String) :
    Except Halt Context :=
  match s.checkout directory with
  | .error message =>
    .error (.answer (.refused debug "Could not read repository state" message
      "Run actrun from inside a git repository."))
  | .ok checkout =>
    .ok (.initial checkout t.event t.ref none (Context.parseSecrets t.secrets) s.environ)

/-- The plan of a workflow. -/
def plan (debug : Bool) (w : Workflow) (c : Context) : Except Halt Plan :=
  (w.plan c).mapError fun
    | .graph fault => .answer (.refused debug "Workflow analysis failed" fault.message "")
    | fault => .escape (.plan fault)

/-- Shows the plan of a workflow. -/
def dryrun (s : Surroundings) (debug : Bool) (path : String) (t : TriggerOptions) :
    Except Halt Response := do
  let w ← s.workflow debug path
  let c ← s.context debug t "."
  let p ← plan debug w c
  return .printed debug (Console.plan debug p)

/-- The world of a run. -/
def world (s : Surroundings) (settings : Settings) : World where
  engine := s.engine
  clone := s.clone
  metadata directory := s.files.actionMetadata s.currentDir (Path.parse directory)
  settings := settings
  currentDir := s.currentDir

/-- The name of a workflow, or else another. -/
def nameOr (w : Workflow) (other : String) : String :=
  if w.name = "" then other else w.name

/-- The kind of the error that a failed run is shown as. -/
def reportKind : String := "actrun.errors.CIError"

/-- What a run ends with. -/
def ended (debug : Bool) (w : Workflow) (path : String) (settings : Settings)
    (started : List String) (o : Outcome) : Except Halt Response :=
  let shown := started ++ Event.console debug o.events
  let answer := fun (code : Nat) (output errors : List String) =>
    (⟨code, some debug, some settings, .called .ping :: o.events, Event.warnings o.events,
      shown ++ output, errors⟩ : Response)
  match o.ending with
  | .finished _ => .ok (answer 0 (Console.workflowResult (nameOr w path) true) [])
  | .failed report =>
    let job := if report.job = "" then w.name else report.job
    .ok (answer 1
      (Console.failure debug job report.text none "" true ++
        Console.workflowResult (nameOr w path) false)
      (if debug then Console.exception true true reportKind report.text else []))
  | .stopped (.interrupted _) =>
    .ok (answer Response.interruptedCode ["\nInterrupted by user"] [])
  | .stopped reason => .error (.escape (.stop reason))

/-- Runs a workflow. -/
def run (s : Surroundings) (debug : Bool) (path : String) (t : TriggerOptions)
    (workingDir : String) : Except Halt Response := do
  let settings ← (Settings.ofEnvironment s.environ).mapError fun f => .escape (.settings f)
  let w ← s.workflow debug path
  let c ← s.context debug t workingDir
  let p ← plan debug w c
  match s.engine.refuses [] .ping with
  | some message =>
    let complaint := Response.refused debug "Docker is not available" message
      "Install and start Docker: https://docs.docker.com/get-docker/"
    throw (.answer { complaint with
      engineSettings := some settings, events := [.called .ping] })
  | none =>
    let directory := Path.absolute s.currentDir (Path.parse workingDir)
    let started := Console.runStarted (nameOr w (Path.parse path).name) directory.real.text
      t.event c.github.ref
    let outcome := w.execute (s.world settings) directory.text s.scratch p c
    ended debug w path settings started outcome

/-- A workflow in a list. -/
structure Listed where
  file : Path
  name : String

/-- Reads workflow files; those that hold no workflow are warned of. -/
def readAll (s : Surroundings) : List Path → Except Halt (List Listed × List Warning)
  | [] => .ok ([], [])
  | p :: r =>
    match s.files.readWorkflow s.currentDir p with
    | .ok w => do
      let rest ← s.readAll r
      return (⟨p, w.name⟩ :: rest.1, rest.2)
    | .error fault =>
      match fault.report? p.text "workflow" with
      | none => .error (.escape (.read fault))
      | some message => do
        let rest ← s.readAll r
        return (rest.1, ⟨"workflow_parse_failed", [("file", p.text), ("error", message)]⟩ :: rest.2)

/-- A list of workflows as data. -/
def listData (rows : List Listed) : Value :=
  .list (rows.map fun r => .ofBindings
    [("filename", .text r.file.name), ("filepath", .text r.file.text),
      ("workflow_name", .text r.name)])

/-- A list of workflows as people read it. -/
def listLines (pretty : Bool) (rows : List Listed) : List String :=
  (if pretty then Console.header "Available Workflows" else []) ++
    Console.workflowList (rows.map fun r =>
      (r.file.name, if r.name = "" then "(unnamed)" else r.name))

/-- Lists the workflows in a directory. -/
def list (s : Surroundings) (debug : Bool) (directory : String) (format : ListFormat)
    (pretty : Bool) : Except Halt Response := do
  let files ← (s.files.workflowFiles s.currentDir (Path.parse directory)).mapError fun fault =>
    .escape (.stop (.file fault))
  let found ← s.readAll files
  let output := match format with
    | .json => [Value.json (if pretty then .pretty else .spaced) (listData found.1)]
    | .text => listLines pretty found.1
  return { Response.printed debug output with warnings := found.2 }

/-- A text leads to a directory; an empty text leads nowhere. -/
def isDirectory (s : Surroundings) (text : String) : Bool :=
  text ≠ "" && s.files.look s.currentDir (Path.parse text) matches .ok (some .directory)

/-- The paths of a request are of the right kind: a workflow is no directory, and a directory to
list is one. -/
def admits (s : Surroundings) : Request → Bool
  | .dryrun path _ => !s.isDirectory path
  | .run path _ _ => !s.isDirectory path
  | .list directory _ _ => s.isDirectory directory
  | .version => true

/-- The number of this version. -/
def versionText : String := "0.1.0"

/-- Answers a request. -/
def answer (s : Surroundings) (debug : Bool) : Request → Except Halt Response
  | .dryrun path t => s.dryrun debug path t
  | .run path t workingDir => s.run debug path t workingDir
  | .list directory format pretty => s.list debug directory format pretty
  | .version => .ok (.printed debug [versionText])

/-- Answers the arguments of the command line. -/
def respond (s : Surroundings) (args : List String) : Except Escape Response :=
  match Invocation.ofArguments? args with
  | none => .ok (.usage none)
  | some i =>
    match i.request? FileTree.workflowDirectory with
    | none => .ok (.usage (some i.debug))
    | some r =>
      if r.path?.any fun text => text.toList.contains (Char.ofNat 0) then
        .error (.stop (.file .zeroInPath))
      else if s.admits r then
        match s.answer i.debug r with
        | .ok response => .ok response
        | .error (.answer response) => .ok response
        | .error (.escape e) => .error e
      else .ok (.usage (some i.debug))

end Surroundings

end Drydock.CommandLine
