import Drydock.Run.Job

set_option autoImplicit false
set_option relaxedAutoImplicit false

/-!
A whole run: the jobs of a plan in order, up to the first that stops the run. Whatever happens, the
files of the channel are given up and the engine is closed at the end.
-/

namespace Drydock

namespace Run

/-- Does the planned jobs that would run, and passes the others over. -/
def jobs (w : World) (declared : Bindings Job) : List JobPlan → Run (List JobRun)
  | [] => pure []
  | p :: r => do
    if p.wouldRun then
      let done ← job w declared p.name
      let rest ← jobs w declared r
      return done :: rest
    else
      skipJob p.name
      jobs w declared r

/-- Gives up the files of the channel and closes the engine. -/
def close : Run Unit := do
  changeState fun s => { s with channel := none }
  emit .engineClosed

/-- Does a plan and closes everything, whatever happens. -/
def plan (w : World) (declared : Bindings Job) (plans : List JobPlan) : Run (List JobRun) := do
  let outcome ← attempt (jobs w declared plans)
  close
  settle outcome

end Run

/-- How a run ends. -/
inductive RunEnd
  | finished (jobs : List JobRun)
  | failed (report : Report)
  /-- Something else than a failure stopped the run. -/
  | stopped (reason : Stop)

/-- The end of a run, from how its plan was done. -/
def RunEnd.ofOutcome : Except Stop (List JobRun) → RunEnd
  | .ok done => .finished done
  | .error (.failure f) => .failed (.ofFailure f)
  | .error s => .stopped s

/-- What a run leaves: how it ended, its state if it got as far as having one, the data of
conditions, and all that happened. -/
structure Outcome where
  ending : RunEnd
  state : Option RunState
  context : Context
  events : List Event

/-- The machine in which a run starts, with the files of the channel in the given directory. -/
def Machine.initial (workingDir directory : String) (c : Context) : Machine :=
  ⟨.initial workingDir (some (Channel.opened directory)), c, []⟩

/-- Runs a plan of a workflow. The files of the channel go into the given directory, if one can be
made. -/
def Workflow.execute (w : World) (workingDir : String) (scratch : Except FileFault String)
    (workflow : Workflow) (plan : Plan) (context : Context) : Outcome :=
  match scratch with
  | .error fault => ⟨.failed (.noFiles fault.message), none, context, []⟩
  | .ok directory =>
    let r := Run.plan w workflow.jobs plan.jobs (.initial workingDir directory context)
    ⟨.ofOutcome r.1, some r.2.state, r.2.context, r.2.events⟩

end Drydock
