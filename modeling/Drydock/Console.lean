import Drydock.Number.Layout
import Drydock.Plan
import Drydock.Text.Lines

set_option autoImplicit false
set_option relaxedAutoImplicit false

/-!
What people read: plans, the progress of a run, lists and errors. Every function gives the pieces
it prints, each followed by a line feed.
-/

namespace Drydock.Console

open Text (splitAtChar)

/-- The text of printed pieces. -/
def text (pieces : List String) : String :=
  String.join (pieces.map (· ++ "\n"))

/-- A title underlined by hyphens. -/
def header (title : String) : List String :=
  ["\n" ++ title, String.ofList (List.replicate title.length '-')]

/-- A condition with its verdict. -/
def condition (c : Condition) : String :=
  c.expression ++ " -> " ++ (if c.value then "TRUE" else "FALSE")

/-- A step of a plan; the trace of its condition is shown when `debug` asks for it. -/
def stepPlan (debug jobWouldRun : Bool) (s : StepPlan) : List String :=
  let marker := if !jobWouldRun then "." else if s.wouldRun then "[OK]" else "[SKIP]"
  s!"    {marker} {s.name}" ::
    match s.condition with
    | none => []
    | some c =>
      ("        if: " ++ condition c) :: if debug then ["        trace: " ++ c.trace] else []

/-- A job of a plan. -/
def jobPlan (debug : Bool) (j : JobPlan) : List String :=
  let header :=
    if j.wouldRun then s!"[OK] JOB: {j.name}"
    else s!"[SKIP] JOB: {j.name} (SKIPPED: {j.skipReason})"
  let needs := if j.needs = [] then [] else ["  needs: [" ++ ", ".intercalate j.needs ++ "]"]
  let when := j.condition.toList.map fun c => "  if: " ++ condition c
  ["", header, s!"  runs-on: {j.runsOn}"] ++ needs ++ when ++
    j.steps.flatMap (stepPlan debug j.wouldRun)

/-- A whole plan: where it was made, its jobs, and how many of them would run. -/
def plan (debug : Bool) (p : Plan) : List String :=
  let github := p.context.github
  let sha := String.ofList (github.sha.toList.take 7)
  let skipped := p.skipped.length
  let suffix := if skipped = 0 then "" else s!", {skipped} skipped"
  [s!"WORKFLOW: {p.workflow}", s!"Trigger: {p.trigger}"] ++ header "CONTEXT" ++
    [s!"  github.ref        = {github.ref}",
      s!"  github.event_name = {github.eventName}",
      s!"  github.sha        = {sha}",
      s!"  github.actor      = {github.actor}",
      s!"  github.repository = {github.repository}"] ++
    p.jobs.flatMap (jobPlan debug) ++
    ["", s!"Summary: {p.runnable.length} job(s) will run{suffix}"]

/-- The start of a run. -/
def runStarted (workflow workingDir event ref : String) : List String :=
  ["\nRUN STARTED", s!"Workflow: {workflow}", s!"Working directory: {workingDir}",
    s!"Event: {event}"] ++ (if ref = "" then [] else [s!"Ref: {ref}"]) ++ [""]

/-- The start of a job. -/
def jobStart (name : String) : List String :=
  [s!"\nJOB STARTED: {name}"]

/-- A duration in seconds to one decimal. -/
def seconds (duration : Float) : String :=
  Number.fixed 1 duration ++ "s"

/-- The end of a job that succeeded. -/
def jobSuccess (name : String) (duration : Float) : List String :=
  [s!"JOB SUCCEEDED: {name} ({seconds duration})"]

/-- The end of a job that failed. -/
def jobFailure (name : String) (duration : Float) : List String :=
  [s!"JOB FAILED: {name} (after {seconds duration})"]

/-- The start of a step. -/
def step (index total : Int) (name : String) : List String :=
  [s!"STEP {index}/{total}: {name}"]

/-- The end of a step that succeeded. -/
def stepSuccess (name : String) : List String :=
  [s!"  STATUS: success ({name})"]

/-- A failure: the first line of its reason, or all of it when `debug` asks for it. -/
def failure (debug : Bool) (name reason : String) (exitCode : Option Int) (hint : String)
    (isJob : Bool) : List String :=
  let first := if reason = "" then "Unknown error"
    else String.ofList (reason.toList.takeWhile (· ≠ '\n'))
  [(if isJob then "JOB FAILED: " else "STEP FAILED: ") ++ name] ++
    exitCode.toList.map (fun n => s!"Exit code: {n}") ++
    (if hint = "" then [] else [s!"Hint: {hint}"]) ++
    [if debug then s!"Error details: {reason}" else s!"Error: {first}"]

/-- The image of a container. -/
def imagePull (image : String) : List String :=
  [s!"  IMAGE: {image}"]

/-- The lines that a container printed, unless all are blank. -/
def containerOutput (output : String) : List String :=
  let kept := (output.toList.reverse.dropWhile (· = '\n')).reverse
  if Text.trim kept = [] then []
  else (splitAtChar '\n' kept).map fun line => "  | " ++ String.ofList line

/-- A variable that a step set. -/
def envSet (key value : String) : List String :=
  [s!"  ENV: {key}={value}"]

/-- An output of a step. -/
def outputSet (id key value : String) : List String :=
  [s!"  OUTPUT: steps.{id}.outputs.{key}={value}"]

/-- The outputs of a job. -/
def jobOutputs (outputs : List (String × String)) : List String :=
  if outputs = [] then []
  else "  JOB OUTPUTS:" :: outputs.map fun e => s!"    {e.1}={e.2}"

/-- The end of a run. -/
def workflowResult (workflow : String) (success : Bool) : List String :=
  let bar := String.ofList (List.replicate 40 '=')
  ["\n" ++ bar, (if success then "WORKFLOW SUCCESS: " else "WORKFLOW FAILED: ") ++ workflow, bar]

/-- Files and the names of their workflows, in two columns. -/
def workflowList (rows : List (String × String)) : List String :=
  if rows = [] then ["No workflows found."]
  else
    let width := (rows.map fun e => e.1.length).foldl max 0
    rows.map fun e =>
      e.1 ++ String.ofList (List.replicate (width - e.1.length) ' ') ++ "  " ++ e.2

/-- An error with a title and advice. -/
def error (title message : String) (details : List String) (suggestion : String) : List String :=
  [s!"\nERROR: {title}", message] ++ details.map ("  " ++ ·) ++
    (if suggestion = "" then [] else [s!"\n{suggestion}"])

/-- A failure without a title. -/
def plainError (message : String) : List String :=
  [s!"Error: {message}"]

/-- An error that came through: only its message, or with `debug` its kind as well, under a title if
it was raised on the way. -/
def exception (debug raised : Bool) (kind message : String) : List String :=
  if debug then
    (if raised then ["Traceback (most recent call last):"] else []) ++
      [if message = "" then kind else s!"{kind}: {message}"]
  else plainError message

end Drydock.Console
