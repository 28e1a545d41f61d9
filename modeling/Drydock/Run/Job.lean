import Drydock.Run.Step

set_option autoImplicit false
set_option relaxedAutoImplicit false

/-!
A job of a run: its steps one after another, up to the first that stops the run.
-/

namespace Drydock.Run

/-- Comes to steps one after another, counting from an index. -/
def steps (w : World) (total : Nat) : Nat → List Step → Run Unit
  | _, [] => pure ()
  | index, s :: r => do
    reach w index total s
    steps w total (index + 1) r

/-- Begins a job. -/
def openJob (name : String) (job : Job) : Run Unit := do
  changeState fun s => { s with job := some ⟨name, job, .inProgress, ∅⟩ }
  emit (.jobStarted name)

/-- Where a job stands that a failure ends. -/
def endOf (f : Failure) : JobStatus :=
  if f.kind = .cancelled then .cancelled else .failure

/-- Ends a job by a failure. -/
def failJob {α : Type} (name : String) (f : Failure) : Run α := do
  changeState fun s => { s with job := s.job.map fun j => { j with status := endOf f } }
  changeContext fun c => c.recordJob name (endOf f).text ∅
  emit (.jobFailed name)
  fail (f.inJob name)

/-- Ends a job well. -/
def succeedJob (name : String) (job : Job) : Run JobRun := do
  let outputs ← read fun m => m.state.jobOutputs job
  let done : JobRun := ⟨name, job, .success, outputs⟩
  changeState fun s => { s with job := some done }
  changeContext fun c => c.recordJob name statusSuccess outputs
  emit (.jobSucceeded name outputs)
  return done

/-- Ends a job as its steps have ended. -/
def closeJob (name : String) (job : Job) : Except Stop Unit → Run JobRun
  | .ok () => succeedJob name job
  | .error (.failure f) => failJob name f
  | .error s => stop s

/-- Passes a job over. -/
def skipJob (name : String) : Run Unit :=
  changeContext fun c => c.recordJob name statusSkipped ∅

/-- Does a job of a workflow. -/
def job (w : World) (jobs : Bindings Job) (name : String) : Run JobRun :=
  match jobs.get? name with
  | none => fail ⟨.execution, s!"job {name} not found in workflow", some name, none⟩
  | some j => do
    openJob name j
    let outcome ← attempt (steps w j.steps.length 1 j.steps)
    closeJob name j outcome

end Drydock.Run
