import Drydock.Action.Inputs
import Drydock.Action.Reference
import Drydock.Run.Command

set_option autoImplicit false
set_option relaxedAutoImplicit false

/-!
Steps that use an action. An action is an image, a script for Node.js, or a list of commands; it is
checked in full before anything of it runs.
-/

namespace Drydock.Run

open ActionRef (imageScheme withoutScheme cachePath url)

/-- A step with the variables of an action under its own. -/
def layered (step : Step) (inputs runsEnv : Bindings String) : Step :=
  { step with env := (runsEnv.update (inputEnvironment inputs)).update step.env }

/-- The container for an image. -/
def imageSpec (s : RunState) (step : Step) (image : String) (inputs runsEnv : Bindings String) :
    ContainerSpec where
  image := image
  command := []
  env := s.stepEnvironment (layered step inputs runsEnv)
  workingDir := Platform.workspaceMount
  mounts := s.mounts

/-- The container for a script of Node.js. -/
def nodeSpec (s : RunState) (step : Step) (image main files : String)
    (inputs runsEnv : Bindings String) : ContainerSpec where
  image := image
  command := ["node", main]
  env := s.stepEnvironment (layered step inputs runsEnv)
  workingDir := Platform.actionMount
  mounts := s.mounts ++ [Mount.bind files Platform.actionMount]

/-- Runs an image. -/
def image (w : World) (step : Step) (name : String) (inputs runsEnv : Bindings String) :
    Run Int := do
  changeState RunState.ensureFiles
  let spec ← read fun m => imageSpec m.state step name inputs runsEnv
  container w step.id spec

/-- Runs a script of Node.js. -/
def node (w : World) (step : Step) (name main : String) (files : Path)
    (inputs runsEnv : Bindings String) : Run Int := do
  changeState RunState.ensureFiles
  let source := (Path.absolute w.currentDir files).text
  let spec ← read fun m => nodeSpec m.state step name main source inputs runsEnv
  container w step.id spec

/-- A command of an action as a step: it belongs to the step that uses the action. -/
def nestedStep (step : Step) (base : Bindings String) (nested : Step) : Step :=
  { nested with id := step.id, env := base.update nested.env }

/-- Runs commands one after another up to the first that fails. -/
def commands (w : World) : List Step → Run Int
  | [] => pure 0
  | step :: r => do
    let code ← command w step
    if code ≠ 0 then return code
    commands w r

/-- Why the steps of an action are not all commands. -/
def compositeRefusal? (uses : String) (steps : List Step) : Option String :=
  let nested := (steps.filter fun s => s.uses ≠ "" ∧ s.run = "").map Step.uses
  if nested ≠ [] then
    let names := ", ".intercalate nested
    some s!"composite action {uses} uses other actions ({names}); only run steps are supported"
  else if steps.any fun s => s.run == "" then
    some s!"composite action {uses} has a step with neither run nor uses"
  else none

/-- Runs an action made of commands. -/
def composite (w : World) (step : Step) (a : ActionMetadata) : Run Int :=
  match compositeRefusal? step.uses a.runs.steps with
  | some message => fail (.of .unsupportedAction message)
  | none =>
    let inputs := inputEnvironment (a.inputsFor step)
    let base := (a.runs.env.update inputs).update step.env
    commands w (a.runs.steps.map (nestedStep step base))

/-- Runs an action by its metadata; `files` is the directory that they are in. -/
def described (w : World) (step : Step) (a : ActionMetadata) (files : Path) : Run Int :=
  if a.runs.using_ = "docker" then
    if (Text.after? "Dockerfile".toList a.runs.image.toList).isSome then
      fail (.of .unsupportedAction "Dockerfile-based actions are not supported yet")
    else if withoutScheme a.runs.image = "" then
      fail (.of .actionMetadata s!"docker action {step.uses} declares no image")
    else image w step (withoutScheme a.runs.image) (a.inputsFor step) a.runs.env
  else
    match Platform.nodeImage? a.runs.using_ with
    | some name =>
      let main := if a.runs.main = "" then Platform.defaultNodeMain else a.runs.main
      node w step name main files (a.inputsFor step) a.runs.env
    | none =>
      if a.runs.using_ = "composite" then composite w step a
      else
        let kind := if a.runs.using_ = "" then "<empty>" else a.runs.using_
        fail (.of .unsupportedAction s!"unsupported action type: {kind}")

/-- The metadata in a directory, for an action that a step names so. -/
def metadata (w : World) (uses : String) (files : Path) : Run ActionMetadata :=
  match w.metadata files.text with
  | .ok a => pure a
  | .error (.refused message) =>
    fail (.of .actionMetadata s!"failed to load action metadata for {uses}: {message}")
  | .error (.file fault) => stop (.file fault)
  | .error (.broken fault) => stop (.unread fault)

/-- Gets the files of a repository. -/
def clone (w : World) (c : Clone) : Run Unit := do
  emit (.cloned c)
  match w.clone c with
  | .ok () => pure ()
  | .error (.failed message) => fail (.of .git message)
  | .error (.missing program) => stop (.file (.other program))

/-- Runs the action that a step uses and gives its exit code. -/
def action (w : World) (step : Step) : Run Int :=
  match ActionRef.parse step.uses w.settings.defaultRef with
  | .path text => do
    let workingDir ← read fun m => m.state.workingDir
    let files := (Path.parse workingDir).child text
    let a ← metadata w step.uses files
    described w step a files
  | .image name =>
    if name = "" then
      fail (.of .unsupportedAction s!"missing image in action reference: {step.uses}")
    else image w step name step.inputs ∅
  | .repository name ref => do
    let files := cachePath w.settings.actionCache name ref
    clone w ⟨url name, ref, files.text⟩
    let a ← metadata w step.uses files
    described w step a files
  | .unsupported => fail (.of .unsupportedAction s!"unsupported action format: {step.uses}")

end Drydock.Run
