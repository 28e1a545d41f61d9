import Drydock.Run.Action

set_option autoImplicit false
set_option relaxedAutoImplicit false

/-!
A step of a run: its work is done, and if that succeeds, what it wrote is collected for later steps
and conditions. A step that fails in any way is recorded as failed and leaves nothing behind.
-/

namespace Drydock

/-- The work of a step: its command, or else its action, if it has one. -/
def Step.work? (s : Step) : Option StepKind :=
  if s.run ≠ "" then some .run
  else if s.uses ≠ "" then some .action
  else none

namespace Run

/-- Does the work of a step and gives its exit code. -/
def work (w : World) (step : Step) : StepKind → Run Int
  | .run => command w step
  | .action => action w step

/-- Records a step as failed. -/
def recordFailure (step : Step) (f : Failure) : Run Unit := do
  changeState fun s => { s with step := s.step.map fun r => { r with outcome := outcomeFailure } }
  if step.id ≠ "" then changeContext fun c => c.recordStep step.id outcomeFailure ∅
  emit (.stepFailed step.displayName f)

/-- Records a step as failed and stops the run. -/
def failStep {α : Type} (step : Step) (f : Failure) : Run α := do
  recordFailure step f
  fail (f.inStep step.displayName)

/-- Takes what a step wrote out of the channel. -/
def collect : Run (Except FileFault Channel.Collected) := fun m =>
  match m.state.channel with
  | none => (.ok (.ok ⟨∅, ∅⟩), m)
  | some c =>
    let r := c.collect
    (.ok r.2, { m with state := { m.state with channel := some r.1 } })

/-- Hands on what a step wrote; outputs of a step without name are not kept. -/
def merge (step : Step) (values : Channel.Collected) : Run Unit := do
  changeState fun s => s.mergeEnv values.env
  changeContext fun c => c.updateEnv values.env
  emitAll (values.env.entries.map fun e => .envSet e.1 e.2)
  if step.id ≠ "" then
    changeState fun s => s.mergeOutputs step.id values.outputs
    emitAll (values.outputs.entries.map fun e => .outputSet step.id e.1 e.2)

/-- Records a step as done. -/
def recordSuccess (step : Step) (values : Channel.Collected) : Run Unit := do
  changeState fun s => { s with step := s.step.map fun r =>
    { r with outcome := statusSuccess, outputs := values.outputs } }
  if step.id ≠ "" then
    change fun m =>
      let outputs := (m.state.outputs.get? step.id).getD ∅
      { m with context := m.context.recordStep step.id statusSuccess outputs }

/-- The failure of a step at a file. -/
def fileFailure (step : Step) (message : String) : Failure :=
  ⟨.execution, message, none, some step.displayName⟩

/-- What comes after the work of a step: its outputs are collected, or its failure is recorded. -/
def finish (step : Step) : Except Stop Int → Run Unit
  | .error (.failure f) => failStep step f
  | .error (.file fault) => failStep step (fileFailure step fault.message)
  | .error s => stop s
  | .ok code => do
    if code ≠ 0 then failStep step (.stepFailed code none (some step.displayName))
    else
      match ← collect with
      | .error fault =>
        failStep step (fileFailure step s!"reading side-channel files: {fault.message}")
      | .ok values =>
        merge step values
        recordSuccess step values

/-- Does a step. -/
def step (w : World) (s : Step) : Run Unit := do
  changeState fun state => { state with step := some ⟨s, "", ∅⟩ }
  match s.work? with
  | none =>
    fail ⟨.execution, s!"no executor found for step: {s.displayName}", none, some s.displayName⟩
  | some kind => do
    let outcome ← attempt (work w s kind)
    finish s outcome

/-- Passes a step over. -/
def skip (s : Step) : Run Unit := do
  if s.id ≠ "" then changeContext fun c => c.recordStep s.id statusSkipped ∅
  emit .stepSkipped

/-- The condition of a step holds in the data of this moment. -/
def admitted (s : Step) : Run Bool := fun m =>
  match judge? m.context s.condition with
  | .ok verdict => (.ok (verdict.all Condition.value), m)
  | .error fault => (.error (.unjudged fault), m)

/-- Does a step that is admitted, and passes another over. -/
def turn (w : World) (s : Step) (admitted : Bool) : Run Unit := do
  if admitted then
    step w s
    emit (.stepSucceeded s.displayName)
  else skip s

/-- Comes to a step, and does it or passes it over. -/
def reach (w : World) (index total : Nat) (s : Step) : Run Unit := do
  emit (.stepReached index total s.displayName)
  let verdict ← admitted s
  turn w s verdict

end Run

end Drydock
