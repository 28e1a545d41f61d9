import Drydock.Bindings
import Drydock.Number.Refusal

set_option autoImplicit false
set_option relaxedAutoImplicit false

/-!
What a user can set through the environment, and what is fixed inside every container.
-/

namespace Drydock

/-- The settings of a run. -/
structure Settings where
  /-- The image for commands of jobs that name none. -/
  defaultImage : String
  /-- Where cloned actions are kept. -/
  actionCache : String
  /-- The ref of actions that name none. -/
  defaultRef : String
  /-- The seconds that a container gets to stop. -/
  stopTimeout : Int
  /-- The seconds between two looks at a running container. -/
  pollInterval : Float
  /-- The program that runs containers. -/
  dockerBinary : String

/-- Why the environment makes no settings. -/
inductive SettingsFault
  | integer (text : String) (fault : Number.IntegerFault)
  | notReal (text : String)
  deriving DecidableEq, Repr

/-- The wording of a fault. -/
def SettingsFault.message : SettingsFault → String
  | .integer text fault => fault.message 10 text
  | .notReal text => Number.notReal text

namespace Settings

/-- The settings where nothing is set. -/
def standard : Settings :=
  ⟨"ubuntu:latest", "/tmp/actrun-actions", "main", 10, 0.2, "docker"⟩

instance : Inhabited Settings := ⟨standard⟩

/-- The settings that environment variables make. -/
def ofEnvironment (environ : Bindings String) : Except SettingsFault Settings := do
  let stopTimeout ← match environ.get? "ACTRUN_STOP_TIMEOUT" with
    | none => pure standard.stopTimeout
    | some t => (Number.readInteger t.toList).mapError (.integer t)
  let pollInterval ← match environ.get? "ACTRUN_WAIT_POLL" with
    | none => pure standard.pollInterval
    | some t => (Number.readFloat? t.toList).elim (.error (.notReal t)) .ok
  return {
    defaultImage := (environ.get? "ACTRUN_DEFAULT_IMAGE").getD standard.defaultImage
    actionCache := (environ.get? "ACTRUN_ACTION_CACHE").getD standard.actionCache
    defaultRef := (environ.get? "ACTRUN_DEFAULT_ACTION_REF").getD standard.defaultRef
    stopTimeout := stopTimeout
    pollInterval := pollInterval
    dockerBinary := (environ.get? "ACTRUN_DOCKER").getD standard.dockerBinary }

end Settings

namespace Platform

/-- Where the workspace is mounted. -/
def workspaceMount : String := "/github/workspace"

/-- Where the file for variables is mounted. -/
def envFileMount : String := "/github/env/GITHUB_ENV"

/-- Where the file for outputs is mounted. -/
def outputFileMount : String := "/github/env/GITHUB_OUTPUT"

/-- Where the files of an action are mounted. -/
def actionMount : String := "/action"

/-- The variables that every step has. -/
def environment : List (String × String) :=
  [("GITHUB_WORKSPACE", workspaceMount), ("GITHUB_ACTOR", "actrun"),
    ("GITHUB_REPOSITORY", "local/repo"), ("RUNNER_OS", "Linux"), ("RUNNER_ARCH", "X64")]

/-- The variables that tell a step where to write. -/
def fileEnvironment : List (String × String) :=
  [("GITHUB_ENV", envFileMount), ("GITHUB_OUTPUT", outputFileMount)]

/-- The image for an action that runs on Node.js. -/
def nodeImage? : String → Option String
  | "node12" => some "node:12"
  | "node16" => some "node:16"
  | "node20" => some "node:20"
  | _ => none

/-- The script of a Node.js action that names none. -/
def defaultNodeMain : String := "index.js"

end Platform

end Drydock
