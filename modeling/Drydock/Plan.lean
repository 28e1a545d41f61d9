import Drydock.Context
import Drydock.Expr.Eval
import Drydock.Graph
import Drydock.Workflow.Basic

set_option autoImplicit false
set_option relaxedAutoImplicit false

/-!
What would run, and why. Jobs are taken in order; each is judged by what it needs and by its
condition, and its verdict is recorded for the conditions of later jobs. Nothing is executed.
-/

namespace Drydock

/-- A condition and its verdict. -/
structure Condition where
  expression : String
  value : Bool
  trace : String
  deriving DecidableEq, Repr

/-- What is foreseen for a step. -/
structure StepPlan where
  name : String
  kind : StepKind
  command : String
  action : String
  id : String
  condition : Option Condition
  wouldRun : Bool
  deriving DecidableEq, Repr

/-- What is foreseen for a job. -/
structure JobPlan where
  name : String
  runsOn : String
  needs : List String
  condition : Option Condition
  wouldRun : Bool
  skipReason : String
  steps : List StepPlan
  deriving DecidableEq, Repr

/-- What is foreseen for a workflow, with the context that the verdicts leave. -/
structure Plan where
  workflow : String
  trigger : String
  context : Context
  jobs : List JobPlan

/-- Why there is no plan. -/
inductive PlanFault
  | graph (fault : GraphFault)
  /-- A condition compared an integer beyond the range of doubles. -/
  | integerTooLarge
  /-- A condition read an integer with too many digits. -/
  | integerTooLong
  deriving DecidableEq, Repr

/-- The wording of a fault. -/
def PlanFault.message : PlanFault → String
  | .graph fault => fault.message
  | .integerTooLarge => (Expr.Fault.integerTooLarge).message
  | .integerTooLong => (Expr.Fault.integerTooLong).message

namespace Plan

/-- The jobs in order. -/
def order (p : Plan) : List String :=
  p.jobs.map JobPlan.name

/-- The jobs that would run. -/
def runnable (p : Plan) : List JobPlan :=
  p.jobs.filter JobPlan.wouldRun

/-- The jobs that would be skipped. -/
def skipped (p : Plan) : List JobPlan :=
  p.jobs.filter fun j => !j.wouldRun

/-- What is foreseen for a job of this name. -/
def job? (p : Plan) (name : String) : Option JobPlan :=
  p.jobs.find? fun j => j.name == name

end Plan

/-- The width that names made of commands are cut to. -/
def stepNameWidth : Int := 40

/-- The first `n` items of a list, or for a negative `n` all but the last `-n`. -/
def takeUpTo {α : Type} (n : Int) (xs : List α) : List α :=
  if 0 ≤ n then xs.take n.toNat else xs.take (xs.length - (-n).toNat)

/-- The first line of a text; one longer than the width ends in three points. -/
def truncateLine (text : String) (width : Int) : String :=
  let line := text.toList.takeWhile (· ≠ '\n')
  if width < line.length then String.ofList (takeUpTo (width - 3) line ++ "...".toList)
  else String.ofList line

/-- The name that a step is shown under. -/
def Step.displayName (s : Step) : String :=
  if s.name ≠ "" then s.name
  else if s.run ≠ "" then truncateLine s.run stepNameWidth
  else s.uses

/-- The verdict on a condition: true for the truth value alone, false with the reason in the trace
if there is no value. For an integer too large to compare or too long to write there is no verdict. -/
def judge (c : Context) (expression : String) : Except PlanFault Condition :=
  match Expr.evaluate c.lookup expression with
  | .ok outcome =>
    let value := match outcome.value with
      | .bool b => b
      | _ => false
    .ok ⟨expression, value, outcome.trace⟩
  | .error .integerTooLarge => .error .integerTooLarge
  | .error .integerTooLong => .error .integerTooLong
  | .error fault => .ok ⟨expression, false, "error: " ++ fault.message⟩

/-- The verdict on a condition that may be absent. -/
def judge? (c : Context) (expression : String) : Except PlanFault (Option Condition) :=
  if expression = "" then .ok none else (judge c expression).map some

/-- What is foreseen for a step in a context. -/
def planStep (c : Context) (s : Step) : Except PlanFault StepPlan := do
  let condition ← judge? c s.condition
  return {
    name := s.displayName
    kind := s.kind
    command := s.run
    action := s.uses
    id := s.id
    condition := condition
    wouldRun := condition.all Condition.value }

/-- The status of a completed job. -/
def statusSuccess : String := "success"

/-- The status of a job or step that was passed over. -/
def statusSkipped : String := "skipped"

/-- The first needed job that is not recorded as a success, with the reason it gives. -/
def unmetNeed? (c : Context) : List String → Option String
  | [] => none
  | dep :: r =>
    let status := ((c.jobs.get? dep).map Completion.status).getD ""
    if status = statusSuccess then unmetNeed? c r
    else
      let word := if status = "" then "not run" else status
      some s!"dependency '{dep}' was {word}"

/-- The reason of a condition that does not hold. -/
def conditionFalse : String := "condition evaluated to false"

/-- What is foreseen for a job in a context. -/
def planJob (c : Context) (name : String) (j : Job) : Except PlanFault JobPlan := do
  let unmet := unmetNeed? c j.dependencies
  let condition ← judge? c j.condition
  let refused := condition.any fun v => !v.value
  let steps ← j.steps.mapM (planStep c)
  return {
    name := name
    runsOn := j.runsOn.text
    needs := j.dependencies
    condition := condition
    wouldRun := !refused && unmet.isNone
    skipReason := if refused then conditionFalse else unmet.getD ""
    steps := steps }

/-- The status that a verdict is recorded with. -/
def JobPlan.status (j : JobPlan) : String :=
  if j.wouldRun then statusSuccess else statusSkipped

/-- Foresees jobs one after another, each verdict recorded before the next. -/
def planJobs (jobs : Bindings Job) : Context → List String → Except PlanFault (List JobPlan × Context)
  | c, [] => .ok ([], c)
  | c, name :: r =>
    match jobs.get? name with
    | none => planJobs jobs c r
    | some j => do
      let plan ← planJob c name j
      let rest ← planJobs jobs (c.recordJob name plan.status ∅) r
      return (plan :: rest.1, rest.2)

/-- The jobs of a workflow, each after all it needs. -/
def Workflow.order (w : Workflow) : Except GraphFault (List String) := do
  (← Graph.build (w.jobs.entries.map fun e => (e.1, e.2.dependencies))).order

/-- What would run of a workflow in a context. -/
def Workflow.plan (w : Workflow) (c : Context) : Except PlanFault Plan :=
  match w.order with
  | .error fault => .error (.graph fault)
  | .ok order => do
    let result ← planJobs w.jobs c order
    return ⟨w.name, c.github.eventName, result.2, result.1⟩

end Drydock
