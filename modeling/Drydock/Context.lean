import Drydock.Bindings
import Drydock.Text.Search
import Drydock.Value.Basic

set_option autoImplicit false
set_option relaxedAutoImplicit false

/-!
The data that conditions read. A path is cut at its points, empty segments are dropped, and the
first segment names a part of the context. Every path has an answer; most are not found.
-/

namespace Drydock

open Text (cutAt? splitAtChar)

/-- How a job or a step ended, and what it put out. -/
structure Completion where
  status : String
  outputs : Bindings String
  deriving DecidableEq, Repr

/-- What triggered the workflow, and where. -/
structure Trigger where
  eventName : String
  ref : String
  sha : String
  actor : String
  repository : String
  workspace : String
  event : Value
  deriving Repr

/-- The data that conditions read. -/
structure Context where
  github : Trigger
  env : Bindings String
  secrets : Bindings String
  matrix : Bindings Value
  jobs : Bindings Completion
  steps : Bindings Completion

namespace Trigger

/-- No trigger. -/
def empty : Trigger := ⟨"", "", "", "", "", "", .map []⟩

/-- The plain fields, by name and in order. -/
def fields (t : Trigger) : List (String × String) :=
  [("event_name", t.eventName), ("ref", t.ref), ("sha", t.sha), ("actor", t.actor),
    ("repository", t.repository), ("workspace", t.workspace)]

/-- Walks down maps by text keys. -/
def walk : Value → List String → Option Value
  | v, [] => some v
  | .map entries, name :: r =>
    match Value.field? name entries with
    | some v => walk v r
    | none => none
  | _, _ :: _ => none

/-- The answer for the segments after `github`. -/
def lookup (t : Trigger) : List String → Option Value
  | "event" :: r => walk t.event r
  | [name] => (valueOf? name t.fields).map .text
  | _ => none

end Trigger

namespace Completion

/-- The answer for the segments after a job or a step; its status has the given name. -/
def lookup (c : Completion) (statusName : String) : List String → Option Value
  | [name] => if name = statusName then some (.text c.status) else none
  | ["outputs", name] => (c.outputs.get? name).map .text
  | _ => none

end Completion

namespace Context

/-- Nothing is known. -/
def empty : Context := ⟨.empty, ∅, ∅, ∅, ∅, ∅⟩

instance : Inhabited Context := ⟨empty⟩

/-- The segments of a path that are not empty. -/
def segments (path : String) : List String :=
  ((splitAtChar '.' path.toList).filter (· ≠ [])).map String.ofList

/-- The answer for segments. -/
def lookupSegments (c : Context) : List String → Option Value
  | "github" :: r => c.github.lookup r
  | ["env", name] => (c.env.get? name).map .text
  | ["secrets", name] => (c.secrets.get? name).map .text
  | ["matrix", name] => c.matrix.get? name
  | "jobs" :: job :: r => (c.jobs.get? job).bind fun done => done.lookup "status" r
  | "steps" :: step :: r => (c.steps.get? step).bind fun done => done.lookup "outcome" r
  | _ => none

/-- The answer for a path. -/
def lookup (c : Context) (path : String) : Option Value :=
  c.lookupSegments (segments path)

/-- Records how a job ended, in place of what was recorded for it. -/
def recordJob (c : Context) (name status : String) (outputs : Bindings String) : Context :=
  { c with jobs := c.jobs.insert name ⟨status, outputs⟩ }

/-- Records how a step ended, in place of what was recorded for it. -/
def recordStep (c : Context) (id outcome : String) (outputs : Bindings String) : Context :=
  { c with steps := c.steps.insert id ⟨outcome, outputs⟩ }

/-- Environment variables on top of those that are set. -/
def updateEnv (c : Context) (env : Bindings String) : Context :=
  { c with env := c.env.update env }

/-- The payload of an event that comes without one. -/
def defaultPayload (eventName : String) : Value :=
  if eventName = "push" then
    .ofBindings [("ref", .text ""), ("before", .text ""), ("after", .text ""), ("commits", .list [])]
  else if eventName = "pull_request" then
    .ofBindings [("action", .text "opened"), ("number", .int 1),
      ("pull_request", .ofBindings [("number", .int 1), ("title", .text ""), ("body", .text "")])]
  else .map []

/-- Secrets given as `NAME=VALUE`; texts without a name or an equals sign are passed over. -/
def parseSecrets (texts : List String) : Bindings String :=
  .ofList (texts.filterMap fun t =>
    match cutAt? ['='] t.toList with
    | some (name@(_ :: _), value) => some (String.ofList name, String.ofList value)
    | _ => none)

/-- The facts about a checkout that a trigger starts from. -/
structure Checkout where
  ref : String
  sha : String
  actor : String
  repository : String
  workspace : String
  deriving DecidableEq, Repr

/-- The context before anything has run. A ref that is given overrides that of the checkout, and an
event without payload gets the default one. -/
def initial (checkout : Checkout) (eventName ref : String) (payload : Option Value)
    (secrets env : Bindings String) : Context where
  github := {
    eventName := eventName
    ref := if ref = "" then checkout.ref else ref
    sha := checkout.sha
    actor := checkout.actor
    repository := checkout.repository
    workspace := checkout.workspace
    event := payload.getD (defaultPayload eventName) }
  env := env
  secrets := secrets
  matrix := ∅
  jobs := ∅
  steps := ∅

end Context

end Drydock
