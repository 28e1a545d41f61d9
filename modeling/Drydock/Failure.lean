set_option autoImplicit false
set_option relaxedAutoImplicit false

/-!
How a run goes wrong. A failure knows what went wrong and, as far as it has been told, in which job
and step; the report of a run is made from the failure that ended it.
-/

namespace Drydock

/-- What went wrong. -/
inductive FailureKind
  | stepFailed (exitCode : Int)
  | cancelled
  | unsupportedAction
  | actionMetadata
  | containerRuntime
  | git
  | execution
  deriving DecidableEq, Repr

/-- The word for a kind of failure. -/
def FailureKind.text : FailureKind → String
  | .stepFailed _ => "step_failed"
  | .cancelled => "cancelled"
  | .unsupportedAction => "unsupported_action"
  | .actionMetadata => "action_metadata"
  | .containerRuntime => "container_runtime"
  | .git => "git"
  | .execution => "execution"

/-- A failure, and where it happened as far as that is known. -/
structure Failure where
  kind : FailureKind
  message : String
  job : Option String
  step : Option String
  deriving DecidableEq, Repr

namespace Failure

/-- A failure of which the place is not known yet. -/
def of (kind : FailureKind) (message : String) : Failure := ⟨kind, message, none, none⟩

/-- The failure of a step that exits with a code. -/
def stepFailed (exitCode : Int) (job step : Option String) : Failure :=
  ⟨.stepFailed exitCode, s!"step failed with exit code {exitCode}", job, step⟩

/-- The message of a cancelled run. -/
def cancelledMessage : String := "run cancelled"

/-- The exit code of a step that failed by it. -/
def exitCode? (f : Failure) : Option Int :=
  match f.kind with
  | .stepFailed code => some code
  | _ => none

/-- The known parts of the place of a failure. -/
def place (f : Failure) : List String :=
  let part := fun (label : String) (name : Option String) =>
    (name.filter (· ≠ "")).toList.map (label ++ ·)
  part "job=" f.job ++ part "step=" f.step

/-- The message of a failure with its place in brackets. -/
def text (f : Failure) : String :=
  if f.place = [] then f.message else s!"{f.message} (" ++ ", ".intercalate f.place ++ ")"

/-- A failure that knows at least this step. -/
def inStep (f : Failure) (label : String) : Failure :=
  { f with step := some (f.step.getD label) }

/-- A failure that knows at least this job. -/
def inJob (f : Failure) (name : String) : Failure :=
  { f with job := some (f.job.getD name) }

end Failure

/-- The report of a run that failed. -/
structure Report where
  kind : String
  job : String
  step : Option String
  message : String
  details : List (String × Int)
  deriving DecidableEq, Repr

namespace Report

/-- The report of a failure. -/
def ofFailure (f : Failure) : Report where
  kind := f.kind.text
  job := f.job.getD ""
  step := f.step
  message := f.message
  details := f.exitCode?.toList.map fun code => ("exit_code", code)

/-- The report of a run that found no place for its files. -/
def noFiles (reason : String) : Report where
  kind := "io"
  job := ""
  step := none
  message := s!"creating side-channel files: {reason}"
  details := []

/-- The lines of a report. -/
def text (r : Report) : String :=
  "\n".intercalate ([s!"{r.kind}: {r.message}", s!"job={r.job}"] ++
    (r.step.filter (· ≠ "")).toList.map ("step=" ++ ·) ++
    r.details.map fun d => s!"{d.1}={d.2}")

end Report

end Drydock
