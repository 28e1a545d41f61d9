import Drydock.Git
import Drydock.Repository
import Drydock.Run.Event
import Drydock.Template

set_option autoImplicit false
set_option relaxedAutoImplicit false

/-!
The state of a run and the parts that a run is made of. A part takes the state, leaves another, and
either gives a value or stops the run; what was done before it stopped stays done.
-/

namespace Drydock

/-- Where a job of a run stands. -/
inductive JobStatus
  | inProgress | success | failure | cancelled
  deriving DecidableEq, Repr

/-- The word for where a job stands. -/
def JobStatus.text : JobStatus → String
  | .inProgress => "in_progress"
  | .success => statusSuccess
  | .failure => "failure"
  | .cancelled => "cancelled"

/-- A job in a run. -/
structure JobRun where
  name : String
  job : Job
  status : JobStatus
  outputs : Bindings String
  deriving Repr

/-- A job that is done in one way or another. -/
def JobRun.isFinished (j : JobRun) : Bool :=
  j.status ≠ .inProgress

/-- A step in a run; its outcome is empty until it is known. -/
structure StepRun where
  step : Step
  outcome : String
  outputs : Bindings String
  deriving DecidableEq, Repr

/-- The outcome of a step that failed. -/
def outcomeFailure : String := "failure"

/-- What a run keeps between steps. -/
structure RunState where
  workingDir : String
  channel : Option Channel
  /-- The containers that are not removed yet, by the step that they belong to. -/
  live : Bindings String
  env : Bindings String
  outputs : Bindings (Bindings String)
  job : Option JobRun
  step : Option StepRun

namespace RunState

/-- The state in which a run starts. -/
def initial (workingDir : String) (channel : Option Channel) : RunState :=
  ⟨workingDir, channel, ∅, ∅, ∅, none, none⟩

/-- Variables on top of those that steps set before. -/
def mergeEnv (s : RunState) (values : Bindings String) : RunState :=
  { s with env := s.env.update values }

/-- Outputs of a step on top of those that it had before. -/
def mergeOutputs (s : RunState) (step : String) (values : Bindings String) : RunState :=
  { s with outputs := s.outputs.insert step (((s.outputs.get? step).getD ∅).update values) }

/-- A text with its references replaced by what steps left behind. -/
def fill (s : RunState) (text : String) : String :=
  Template.fill (Reference.value s.outputs s.env) text

/-- The outputs of a job. -/
def jobOutputs (s : RunState) (j : Job) : Bindings String :=
  j.outputs.map s.fill

/-- The variables of the container of the current job, and those of the job on top of them. -/
def jobEnvironment (s : RunState) : Bindings String :=
  match s.job with
  | none => ∅
  | some run => ((run.job.container.map Container.env).getD ∅).update run.job.env

/-- The variables of a step: those of the job, those that steps set, and its own, each over the one
before, and over all of them what the platform fixes. -/
def stepEnvironment (s : RunState) (step : Step) : Bindings String :=
  let own := ((s.jobEnvironment.update s.env).update step.env).insertAll Platform.environment
  if s.channel.isSome then own.insertAll Platform.fileEnvironment else own

/-- The files of the channel are there. -/
def ensureFiles (s : RunState) : RunState :=
  { s with channel := s.channel.map Channel.ensureFiles }

/-- The workspace and the files of the channel, as a container sees them. -/
def mounts (s : RunState) : List Mount :=
  Mount.bind s.workingDir Platform.workspaceMount ::
    match s.channel with
    | none => []
    | some c => [Slot.env, .output].map fun slot => Mount.bind (c.path slot) slot.mountPoint

/-- The image for commands of the current job. -/
def image (s : RunState) (settings : Settings) : String :=
  match (s.job.bind fun run => run.job.container).map Container.image with
  | none | some "" => settings.defaultImage
  | some image => image

end RunState

/-- What the world answers to a run. -/
structure World where
  engine : Engine
  /-- How a clone goes. -/
  clone : Clone → Except Git.CloneFault Unit
  /-- The metadata in a directory. -/
  metadata : String → Except MetadataFault ActionMetadata
  settings : Settings
  /-- The directory that relative paths start from. -/
  currentDir : Path

/-- Why a run stops. -/
inductive Stop
  | failure (f : Failure)
  | file (fault : FileFault)
  | interrupted (message : String)
  /-- A condition that cannot be judged. -/
  | unjudged (fault : PlanFault)
  /-- Metadata that break their reader. -/
  | unread (fault : ReadFault)

/-- The wording of a reason. -/
def Stop.message : Stop → String
  | .failure f => f.text
  | .file fault => fault.message
  | .interrupted message => message
  | .unjudged fault => fault.message
  | .unread fault => fault.message "action metadata"

/-- All that changes in a run: what it keeps, the data that conditions read, and what happened. -/
structure Machine where
  state : RunState
  context : Context
  events : List Event

namespace Machine

/-- One more event. -/
def emit (m : Machine) (e : Event) : Machine :=
  { m with events := m.events ++ [e] }

/-- The calls made so far. -/
def calls (m : Machine) : List Engine.Call :=
  Event.calls m.events

end Machine

/-- A part of a run. -/
def Run (α : Type) : Type :=
  Machine → Except Stop α × Machine

namespace Run

variable {α β : Type}

instance : Monad Run where
  pure a := fun m => (.ok a, m)
  bind x f := fun m =>
    match x m with
    | (.ok a, m) => f a m
    | (.error s, m) => (.error s, m)

/-- Stops the run. -/
def stop (s : Stop) : Run α := fun m => (.error s, m)

/-- Stops the run by a failure. -/
def fail (f : Failure) : Run α := stop (.failure f)

/-- Does a part and goes on, whether it stopped or not. -/
def attempt (x : Run α) : Run (Except Stop α) := fun m =>
  let r := x m
  (.ok r.1, r.2)

/-- Stops as an attempt has stopped, or gives its value. -/
def settle : Except Stop α → Run α
  | .ok a => pure a
  | .error s => stop s

/-- Reads something of the machine. -/
def read (f : Machine → α) : Run α := fun m => (.ok (f m), m)

/-- Changes the machine. -/
def change (f : Machine → Machine) : Run Unit := fun m => (.ok (), f m)

/-- Changes the state. -/
def changeState (f : RunState → RunState) : Run Unit :=
  change fun m => { m with state := f m.state }

/-- Changes the context. -/
def changeContext (f : Context → Context) : Run Unit :=
  change fun m => { m with context := f m.context }

/-- Notes an event. -/
def emit (e : Event) : Run Unit :=
  change fun m => m.emit e

/-- Notes events. -/
def emitAll (es : List Event) : Run Unit :=
  change fun m => { m with events := m.events ++ es }

theorem bind_apply (x : Run α) (f : α → Run β) (m : Machine) :
    (x >>= f) m =
      match x m with
      | (.ok a, m) => f a m
      | (.error s, m) => (.error s, m) := rfl

@[simp] theorem pure_apply (a : α) (m : Machine) : (pure a : Run α) m = (.ok a, m) := rfl

@[simp] theorem stop_apply (s : Stop) (m : Machine) :
    (stop s : Run α) m = (.error s, m) := rfl

@[simp] theorem attempt_apply (x : Run α) (m : Machine) :
    attempt x m = (.ok (x m).1, (x m).2) := rfl

@[simp] theorem read_apply (f : Machine → α) (m : Machine) : read f m = (.ok (f m), m) := rfl

@[simp] theorem change_apply (f : Machine → Machine) (m : Machine) :
    change f m = (.ok (), f m) := rfl

end Run

end Drydock
