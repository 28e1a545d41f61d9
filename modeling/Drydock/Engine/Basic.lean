import Drydock.Channel
import Drydock.Failure
import Drydock.Settings

set_option autoImplicit false
set_option relaxedAutoImplicit false

/-!
The engine that runs containers. It is known by its answers alone: which calls it refuses, how it
names containers, and what a container does while it is waited for. Each answer may depend on all
calls that were made before.
-/

namespace Drydock

/-- A directory or file of the host shown inside a container. -/
structure Mount where
  source : String
  target : String
  kind : String
  deriving DecidableEq, Repr

/-- A host path bound to a path in a container. -/
def Mount.bind (source target : String) : Mount := ⟨source, target, "bind"⟩

/-- What a container is made from. -/
structure ContainerSpec where
  image : String
  command : List String
  env : Bindings String
  workingDir : String
  mounts : List Mount
  deriving DecidableEq, Repr

/-- Where a file of the channel is mounted. -/
def Slot.mountPoint : Slot → String
  | .env => Platform.envFileMount
  | .output => Platform.outputFileMount

/-- A container sees a file of the channel. -/
def ContainerSpec.sees (c : ContainerSpec) (slot : Slot) : Bool :=
  c.mounts.any fun m => m.target == slot.mountPoint

namespace Engine

/-- A call on the engine. -/
inductive Call
  | ping
  | pull (image : String)
  | create (spec : ContainerSpec)
  | start (container : String)
  | wait (container : String)
  | logs (container : String)
  | stop (container : String)
  | remove (container : String)
  deriving DecidableEq, Repr

/-- The word for a call. -/
def Call.name : Call → String
  | .ping => "ping"
  | .pull _ => "pull"
  | .create _ => "create"
  | .start _ => "start"
  | .wait _ => "wait"
  | .logs _ => "logs"
  | .stop _ => "stop"
  | .remove _ => "remove"

/-- The image or container that a call is about. -/
def Call.subject? : Call → Option String
  | .ping => none
  | .pull image => some image
  | .create spec => some spec.image
  | .start container | .wait container | .logs container | .stop container | .remove container =>
    some container

/-- What a running container does to a file of the channel. -/
inductive Deed
  | delete (slot : Slot)
  | makeDirectory (slot : Slot)
  | write (slot : Slot) (bytes : List UInt8)
  | append (slot : Slot) (bytes : List UInt8)
  deriving DecidableEq, Repr

/-- The file that a deed is done to. -/
def Deed.slot : Deed → Slot
  | .delete slot => slot
  | .makeDirectory slot => slot
  | .write slot _ => slot
  | .append slot _ => slot

/-- The channel after a deed. -/
def Deed.apply (c : Channel) : Deed → Except FileFault Channel
  | .delete slot => c.remove slot
  | .makeDirectory slot => c.replaceByDirectory slot
  | .write slot bytes => c.write slot bytes
  | .append slot bytes => c.append slot bytes

/-- The kind of a failure that waiting ends in: any. -/
abbrev WaitFault := FailureKind

/-- How waiting for a container ends. -/
inductive Ending
  | exits (code : Int) (logs : String)
  | fails (fault : WaitFault) (message : String) (job step : Option String)
  | breaks (fault : FileFault)
  | interrupted (message : String)
  deriving DecidableEq, Repr

/-- What a container does while it is waited for. -/
structure Behaviour where
  deeds : List Deed
  ending : Ending
  deriving DecidableEq, Repr

/-- A container that does nothing and exits well. -/
def Behaviour.idle : Behaviour := ⟨[], .exits 0 ""⟩

instance : Inhabited Behaviour := ⟨.idle⟩

end Engine

/-- An engine, known by its answers to calls after other calls. -/
structure Engine where
  /-- The message of a refused call. -/
  refuses : List Engine.Call → Engine.Call → Option String
  /-- The name of the container that the last call made. -/
  identifier : List Engine.Call → String
  /-- What a container does while the last call waits for it. -/
  behaviour : List Engine.Call → String → Engine.Behaviour

end Drydock
