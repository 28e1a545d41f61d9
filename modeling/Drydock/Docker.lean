import Drydock.Engine.Basic
import Drydock.Failure
import Drydock.Number.Integer
import Drydock.Program.Dialogue
import Drydock.Text.Lines

set_option autoImplicit false
set_option relaxedAutoImplicit false

/-!
The engine as a command line program: what it is asked to do for each call, and how its answers are
read. Waiting looks at the program again and again, and gives it up once the run is cancelled.
-/

namespace Drydock

/-- A program that runs containers. -/
structure Docker where
  binary : String
  stopTimeout : Int
  deriving DecidableEq, Repr

namespace Docker

/-- The failure of a call. -/
def refusal (message : String) : Failure := .of .containerRuntime message

/-- The command for arguments. -/
def command (d : Docker) (args : List String) : Command := ⟨d.binary :: args, none⟩

/-- Why the program gave no answer. -/
def explain (verb : String) : CommandFault → Failure
  | .missing program =>
    refusal s!"{program} command not found. Install Docker and ensure the daemon is running."
  | .failed _ _ out errors => refusal s!"docker {verb} failed: {CommandFault.detail out errors}"

/-- Runs the program and gives its output without blanks around. -/
def ask (d : Docker) (verb : String) (args : List String) : Dialogue (Except Failure String) := do
  return ((← Dialogue.output (d.command (verb :: args))).mapError (explain verb)).map Text.strip

/-- Runs the program for its effect. -/
def order (d : Docker) (verb : String) (args : List String) : Dialogue (Except Failure Unit) := do
  return (← d.ask verb args).map fun _ => ()

/-- The version of the daemon. -/
def ping (d : Docker) : Dialogue (Except Failure String) :=
  d.ask "version" ["--format", "\x7b\x7b.Server.Version\x7d\x7d"]

/-- The arguments that describe a mount. -/
def mountArgs (m : Mount) : List String :=
  ["--mount", s!"type={m.kind},source={m.source},target={m.target}"]

/-- The arguments that describe a container. -/
def createArgs (c : ContainerSpec) : List String :=
  (if c.workingDir = "" then [] else ["--workdir", c.workingDir]) ++
    (c.env.entries.flatMap fun e => ["--env", s!"{e.1}={e.2}"]) ++
    c.mounts.flatMap mountArgs ++ c.image :: c.command

/-- Creates a container and gives its name. -/
def create (d : Docker) (c : ContainerSpec) : Dialogue (Except Failure String) :=
  d.ask "create" (createArgs c)

/-- Starts a container. -/
def start (d : Docker) (container : String) : Dialogue (Except Failure Unit) :=
  d.order "start" [container]

/-- Stops a container. -/
def stop (d : Docker) (container : String) : Dialogue (Except Failure Unit) :=
  d.order "stop" ["--time", toString d.stopTimeout, container]

/-- Removes a container. -/
def remove (d : Docker) (container : String) : Dialogue (Except Failure Unit) :=
  d.order "rm" ["--force", container]

/-- There is an image of this name. -/
def imageExists (d : Docker) (image : String) : Dialogue Bool := do
  return match ← d.ask "image" ["inspect", image] with
    | .ok _ => true
    | .error _ => false

/-- Gets an image, unless there is one. -/
def pull (d : Docker) (image : String) : Dialogue (Except Failure Unit) := do
  if ← d.imageExists image then return .ok ()
  else d.order "pull" ["--quiet", image]

/-- All that a container printed. -/
def logs (d : Docker) (container : String) : Dialogue (Except Failure String) := do
  return (← Dialogue.output (d.command ["logs", container])).mapError fun fault =>
    refusal s!"docker logs failed: {fault.message}"

/-- The command that waits for a container. -/
def waitCommand (d : Docker) (container : String) : Command := d.command ["wait", container]

/-- A program that has ended. -/
structure Ended where
  code : Int
  out : String
  errors : Option String
  deriving DecidableEq, Repr

/-- How waiting went: how many looks found the program still running before one found that it had
ended, during which look the run was cancelled if it was, and how the program ended. Looks are
counted from one; a run that was cancelled before the first look has zero. -/
structure Watch where
  waits : Nat
  cancelledAt : Option Nat
  ended : Ended
  deriving DecidableEq, Repr

/-- What each look that finds the program running finds of the run: that it is cancelled or not. -/
def Watch.looks (w : Watch) : List Bool :=
  (List.range w.waits).map fun k => w.cancelledAt.any fun look => look ≤ k + 1

/-- What is done with a program: it is given some time to end, it is killed, or it is waited for until
it has ended. -/
inductive Handling
  | look
  | kill
  | reap
  deriving DecidableEq, Repr

/-- Looks at a program until it has ended, or until a look finds the run cancelled; then the program is
killed and has to end. Gives what was done, and how the program ended unless it was given up. -/
def watch : List Bool → Ended → List Handling × Option Ended
  | [], ended => ([.look], some ended)
  | true :: _, _ => ([.look, .kill, .reap], none)
  | false :: looks, ended =>
    let rest := watch looks ended
    (.look :: rest.1, rest.2)

/-- How a program that waits for a container is handled, and how it ended unless it was given up. -/
def Watch.course (w : Watch) : List Handling × Option Ended :=
  watch w.looks w.ended

/-- The exit code on the last line of an output. -/
def exitCode? (out : String) : Option Int :=
  (Text.splitLines (Text.trim out.toList)).getLast?.bind fun line =>
    (Number.readInteger line).toOption

/-- The exit code that a program tells. -/
def conclude (e : Ended) : Except Failure Int :=
  if e.code ≠ 0 then
    let errors := Text.strip (e.errors.getD "")
    .error (refusal s!"docker wait failed: {errors}")
  else
    match exitCode? e.out with
    | some code => .ok code
    | none => .error (refusal s!"unexpected docker wait output: {Text.quoted e.out}")

/-- The exit code of a container, and whether the waiting program was killed. A program that is
missing is not watched. -/
def wait (d : Docker) : Option Watch → Except Failure Int × Bool
  | none => (.error (refusal s!"{d.binary} command not found"), false)
  | some w =>
    match w.course with
    | (handling, none) =>
      (.error (.of .cancelled Failure.cancelledMessage), handling.contains .kill)
    | (handling, some ended) => (conclude ended, handling.contains .kill)

end Docker

end Drydock
