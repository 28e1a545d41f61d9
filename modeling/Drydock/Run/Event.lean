import Drydock.Action.Metadata
import Drydock.Console
import Drydock.Engine.Basic
import Drydock.Failure

set_option autoImplicit false
set_option relaxedAutoImplicit false

/-!
What happens in a run, in order: jobs and steps, calls on the engine, and what is set. All that can
be seen of a run from outside is a view of its events: the calls, the containers, the console and
the warnings.
-/

namespace Drydock

/-- The request for the files of an action. -/
structure Clone where
  url : String
  ref : String
  destination : String
  deriving DecidableEq, Repr

/-- Something that happens in a run. -/
inductive Event
  | jobStarted (name : String)
  | stepReached (index total : Nat) (label : String)
  | stepSkipped
  | stepSucceeded (label : String)
  | stepFailed (label : String) (failure : Failure)
  | jobFailed (name : String)
  | jobSucceeded (name : String) (outputs : Bindings String)
  | envSet (key value : String)
  | outputSet (step key value : String)
  | imageChosen (image : String)
  | containerOutput (text : String)
  | called (call : Engine.Call)
  | tidyingFailed (call : Engine.Call) (error : String)
  | cloned (clone : Clone)
  | engineClosed
  deriving DecidableEq, Repr

/-- A warning: what failed, for which container, and why. -/
structure Warning where
  event : String
  fields : List (String × String)
  deriving DecidableEq, Repr

namespace Event

/-- The call of an event. -/
def call? : Event → Option Engine.Call
  | .called c => some c
  | _ => none

/-- The request of an event. -/
def clone? : Event → Option Clone
  | .cloned c => some c
  | _ => none

/-- The container that an event asks for. -/
def spec? : Event → Option ContainerSpec
  | .called (.create spec) => some spec
  | _ => none

/-- How much of the name of a container is shown. -/
def shownName : Nat := 12

/-- The warning of an event. -/
def warning? : Event → Option Warning
  | .tidyingFailed call error =>
    let container := String.ofList ((call.subject?.getD "").toList.take shownName)
    some ⟨s!"container_{call.name}_failed", [("container_id", container), ("error", error)]⟩
  | _ => none

/-- The time that is shown for every job: runs are not timed. -/
def shownDuration : Float := 0.0

/-- What an event puts on the console; `debug` asks for all of the reason of a failure. -/
def lines (debug : Bool) : Event → List String
  | .jobStarted name => Console.jobStart name
  | .stepReached index total label => Console.step index total label
  | .stepSkipped => ["  STATUS: skipped (condition evaluated to false)"]
  | .stepSucceeded label => Console.stepSuccess label
  | .stepFailed label failure =>
    Console.failure debug label failure.text failure.exitCode? "" false
  | .jobFailed name => Console.jobFailure name shownDuration
  | .jobSucceeded name outputs =>
    Console.jobOutputs outputs.entries ++ Console.jobSuccess name shownDuration
  | .envSet key value => Console.envSet key value
  | .outputSet step key value => Console.outputSet step key value
  | .imageChosen image => Console.imagePull image
  | .containerOutput text => Console.containerOutput text
  | .called _ | .tidyingFailed _ _ | .cloned _ | .engineClosed => []

/-- The calls among events. -/
def calls (es : List Event) : List Engine.Call := es.filterMap call?

/-- The requests among events. -/
def clones (es : List Event) : List Clone := es.filterMap clone?

/-- The containers that events ask for. -/
def specs (es : List Event) : List ContainerSpec := es.filterMap spec?

/-- The warnings among events. -/
def warnings (es : List Event) : List Warning := es.filterMap warning?

/-- What events put on the console. -/
def console (debug : Bool) (es : List Event) : List String := es.flatMap (lines debug)

end Event

end Drydock
