import Drydock.Run.Machine

set_option autoImplicit false
set_option relaxedAutoImplicit false

/-!
The life of a container: its image is pulled, it is created and started, waited for, and its output
is shown. However that ends, it is stopped and removed, and a refusal to do so is only a warning.
-/

namespace Drydock.Run

open Engine (Call Deed Ending)

/-- Makes a call; a refusal is a failure. -/
def call (w : World) (c : Call) : Run Unit := fun m =>
  match w.engine.refuses m.calls c with
  | some message => (.error (.failure (.of .containerRuntime message)), m.emit (.called c))
  | none => (.ok (), m.emit (.called c))

/-- Makes a call; a refusal is a warning. -/
def tidy (w : World) (c : Call) : Run Unit := fun m =>
  match w.engine.refuses m.calls c with
  | some message => (.ok (), (m.emit (.called c)).emit (.tidyingFailed c message))
  | none => (.ok (), m.emit (.called c))

/-- Creates a container and gives its name. -/
def create (w : World) (spec : ContainerSpec) : Run String := do
  call w (.create spec)
  read fun m => w.engine.identifier m.calls

/-- Does one thing to a file that the container sees. -/
def perform (spec : ContainerSpec) (d : Deed) : Run Unit := fun m =>
  match m.state.channel with
  | some c =>
    if spec.sees d.slot then
      match d.apply c with
      | .ok c => (.ok (), { m with state := { m.state with channel := some c } })
      | .error fault => (.error (.file fault), m)
    else (.ok (), m)
  | none => (.ok (), m)

/-- Does things one after another. -/
def performAll (spec : ContainerSpec) : List Deed → Run Unit
  | [] => pure ()
  | d :: r => do
    perform spec d
    performAll spec r

/-- A container that has exited. -/
structure Exit where
  code : Int
  logs : String

/-- The end of a wait. -/
def conclude : Ending → Run Exit
  | .exits code logs => pure ⟨code, logs⟩
  | .fails fault message job step => fail ⟨fault, message, job, step⟩
  | .breaks fault => stop (.file fault)
  | .interrupted message => stop (.interrupted message)

/-- Waits for a container. -/
def wait (w : World) (spec : ContainerSpec) (container : String) : Run Exit := do
  call w (.wait container)
  let behaviour ← read fun m => w.engine.behaviour m.calls container
  performAll spec behaviour.deeds
  conclude behaviour.ending

/-- Starts a container, waits for it and shows its output; gives its exit code. -/
def follow (w : World) (spec : ContainerSpec) (container : String) : Run Int := do
  call w (.start container)
  let exit ← wait w spec container
  call w (.logs container)
  emit (.containerOutput exit.logs)
  return exit.code

/-- Keeps track of a container that has to be removed. -/
def register (step container : String) : Run Unit :=
  changeState fun s => { s with live := s.live.insert step container }

/-- Stops and removes a container. -/
def dispose (w : World) (step container : String) : Run Unit := do
  tidy w (.stop container)
  tidy w (.remove container)
  changeState fun s => { s with live := s.live.erase step }

/-- Runs a container for a step and gives its exit code. -/
def container (w : World) (step : String) (spec : ContainerSpec) : Run Int := do
  emit (.imageChosen spec.image)
  call w (.pull spec.image)
  let name ← create w spec
  register step name
  let outcome ← attempt (follow w spec name)
  dispose w step name
  settle outcome

end Drydock.Run
