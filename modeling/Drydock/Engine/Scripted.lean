import Drydock.Engine.Basic
import Drydock.Failure

set_option autoImplicit false
set_option relaxedAutoImplicit false

/-!
An engine that follows a script, for runs without containers. The calls of given names are refused,
containers are numbered, and each wait takes the next behaviour of the script.
-/

namespace Drydock.Engine

/-- What an engine does in advance of being asked. -/
structure Script where
  /-- The messages of refused calls by the names of the calls. -/
  refusals : Bindings String
  /-- The behaviours of successive waits. -/
  behaviours : List Behaviour
  /-- How many containers there were before. -/
  containersBefore : Nat
  /-- Waiting never ends by itself and is cancelled. -/
  cancelled : Bool

/-- The ending of a wait that was cancelled. -/
def cancelledEnding : Ending := .fails .cancelled Failure.cancelledMessage none none

/-- How many calls have a name. -/
def countCalls (name : String) (calls : List Call) : Nat :=
  calls.countP fun c => c.name == name

/-- The engine that follows a script. -/
def scripted (s : Script) : Engine where
  refuses _ call := s.refusals.get? call.name
  identifier calls := let number := s.containersBefore + countCalls "create" calls
    s!"container-{number}"
  behaviour calls _ :=
    if s.cancelled then ⟨[], cancelledEnding⟩
    else (s.behaviours[countCalls "wait" calls - 1]?).getD .idle

end Drydock.Engine
