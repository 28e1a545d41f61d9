import Drydock.Run.Container

set_option autoImplicit false
set_option relaxedAutoImplicit false

/-!
Steps that run a command in the image of their job.
-/

namespace Drydock.Run

/-- The command line of a step, with references filled in. -/
def commandLine (s : RunState) (step : Step) : List String :=
  ["sh", "-c", s.fill step.run]

/-- The container for the command of a step. -/
def commandSpec (settings : Settings) (s : RunState) (step : Step) : ContainerSpec where
  image := s.image settings
  command := commandLine s step
  env := s.stepEnvironment step
  workingDir := Platform.workspaceMount
  mounts := s.mounts

/-- Runs the command of a step and gives its exit code. -/
def command (w : World) (step : Step) : Run Int := do
  changeState RunState.ensureFiles
  let spec ← read fun m => commandSpec w.settings m.state step
  container w step.id spec

end Drydock.Run
