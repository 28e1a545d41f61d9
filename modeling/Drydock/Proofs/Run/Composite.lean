import Drydock.Proofs.Run.Environment
import Drydock.Proofs.Run.Rejection
import Mathlib

set_option autoImplicit false
set_option relaxedAutoImplicit false

/-!
Actions made of commands. Main statement: such an action does what its commands do one after another, up
to and with the first that exits with a code other than zero, each in a container that is made as the
state says in which the action was begun.
-/

namespace Drydock

open Engine (Call lifeCalls)
open Machine (Works Grounded)

namespace Engine

/-- The container that a call asks for. -/
def Call.spec? : Call → Option ContainerSpec
  | .create spec => some spec
  | _ => none

/-- The calls for one container, made after others: none is refused but perhaps to stop or remove it,
and the container exits with a code. -/
structure Exits (e : Engine) (spec : ContainerSpec) (code : Int) (before after : List Call) :
    Prop where
  accepted : e.Accepts before [.pull spec.image, .create spec, .start (e.named before spec),
    .wait (e.named before spec), .logs (e.named before spec)]
  exited : ∃ logs, (e.behaviour (before ++ [.pull spec.image, .create spec,
    .start (e.named before spec), .wait (e.named before spec)]) (e.named before spec)).ending =
      .exits code logs
  calls : after = before ++ lifeCalls spec (e.named before spec)
    [.wait (e.named before spec), .logs (e.named before spec)]

variable {e : Engine} {spec : ContainerSpec} {code : Int} {before after : List Call}

theorem Exits.specs (exits : e.Exits spec code before after) :
    after.filterMap Call.spec? = before.filterMap Call.spec? ++ [spec] := by
  rw [exits.calls, List.filterMap_append]
  rfl

end Engine

theorem Event.specs_eq (es : List Event) : specs es = (calls es).filterMap Engine.Call.spec? := by
  rw [specs, calls, List.filterMap_filterMap]
  refine List.filterMap_congr fun e _ => ?_
  cases e with
  | called c => cases c <;> rfl
  | _ => rfl

/-- A step of an action made of commands, as a step by itself: it belongs to the step that uses the
action, and over the variables of the action it has those of the inputs, of that step, and its own. -/
def ActionMetadata.commandFor (a : ActionMetadata) (s nested : Step) : Step :=
  { nested with
    id := s.id
    env := .updates [a.runs.env, inputEnvironment (a.inputsFor s), s.env, nested.env] }

variable {w : World} {s : Step} {a : ActionMetadata} {files : Path} {m m₁ m' : Machine} {code : Int}

theorem nestedStep_eq_commandFor (nested : Step) :
    Run.nestedStep s ((a.runs.env.update (inputEnvironment (a.inputsFor s))).update s.env) nested =
      a.commandFor s nested := by
  simp [Run.nestedStep, ActionMetadata.commandFor, Bindings.updates, Bindings.empty_update]

namespace Run

/-- Of the files, the container of a command depends on where they are, and on whether there are any. -/
theorem commandSpec_congr (settings : Settings) (state : RunState) (s : Step) {channel : Option Channel}
    (live : Bindings String)
    (there : channel.map Channel.directory = state.channel.map Channel.directory) :
    commandSpec settings ({ state with channel := channel, live := live } : RunState).ensureFiles s =
      commandSpec settings state.ensureFiles s := by
  obtain ⟨workingDir, own, live', env, outputs, job, step⟩ := state
  rcases own with _ | c <;> rcases channel with _ | c'
  · rfl
  · cases there
  · cases there
  · have paths (slot : Slot) : c'.ensureFiles.path slot = c.ensureFiles.path slot :=
      congrArg (· ++ "/" ++ slot.fileName) (Option.some.inj there)
    have mounts : RunState.mounts (.ensureFiles ⟨workingDir, some c', live, env, outputs, job, step⟩) =
        RunState.mounts (.ensureFiles ⟨workingDir, some c, live', env, outputs, job, step⟩) :=
      congrArg (_ :: ·) (List.map_congr_left fun slot _ => by rw [paths slot])
    exact congrArg (ContainerSpec.mk _ _ _ _) mounts

/-- Work leaves alone all that the container of a command is made from. -/
theorem commandSpec_of_works (works : Works m m') (grounded : Grounded m m') (settings : Settings)
    (s : Step) :
    commandSpec settings m'.state.ensureFiles s = commandSpec settings m.state.ensureFiles s := by
  rw [works.state]
  exact commandSpec_congr settings m.state s _ grounded.directory

theorem launch_eq_ok {step : String} {spec : ContainerSpec}
    (ran : (call w (.pull spec.image) >>= fun _ => create w spec >>= track w step spec) m =
      (.ok code, m')) : w.engine.Exits spec code m.calls m'.calls := by
  obtain ⟨_, m₁, pulled, ran⟩ := bind_eq_ok.mp ran
  obtain ⟨accepted, rfl⟩ := call_eq_ok pulled
  obtain ⟨name, m₂, created, ran⟩ := bind_eq_ok.mp ran
  obtain ⟨accepted', rfl, rfl⟩ := create_eq_ok created
  have before : (m.emit (.called (.pull spec.image))).calls = m.calls ++ [.pull spec.image] :=
    Machine.calls_emit_called m _
  have creating : ((m.emit (.called (.pull spec.image))).emit (.called (.create spec))).calls =
      m.calls ++ [.pull spec.image, .create spec] := by
    rw [Machine.calls_emit_called, before, List.append_assoc]
    rfl
  have named : w.engine.identifier
      ((m.emit (.called (.pull spec.image))).calls ++ [.create spec]) =
        w.engine.named m.calls spec := by
    rw [before, List.append_assoc]
    rfl
  rw [before] at accepted'
  rw [named] at ran
  obtain ⟨used, -, calls, -, -, exited⟩ := tracked w step spec (w.engine.named m.calls spec)
    ((m.emit (.called (.pull spec.image))).emit (.called (.create spec)))
  rw [ran, creating] at calls exited
  obtain ⟨rfl, more, logs, ending⟩ := exited code rfl
  rw [List.append_assoc] at calls ending
  have accepts : w.engine.Accepts m.calls [.pull spec.image, .create spec] :=
    ⟨accepted, accepted', trivial⟩
  exact ⟨Engine.accepts_append.mpr ⟨accepts, more⟩, ⟨logs, ending⟩, calls⟩

theorem container_eq_ok {step : String} {spec : ContainerSpec}
    (ran : container w step spec m = (.ok code, m')) : w.engine.Exits spec code m.calls m'.calls := by
  obtain ⟨_, m₁, chosen, ran⟩ := bind_eq_ok.mp ran
  cases chosen
  have same : (m.emit (.imageChosen spec.image)).calls = m.calls :=
    Machine.Rests.calls ⟨rfl, [.imageChosen spec.image], rfl, rfl⟩
  rw [← same]
  exact launch_eq_ok ran

theorem command_eq_ok (ran : command w s m = (.ok code, m')) :
    w.engine.Exits (commandSpec w.settings m.state.ensureFiles s) code m.calls m'.calls :=
  container_eq_ok (m := { m with state := m.state.ensureFiles }) ran

/-- Commands are run one after another, each by itself from where the one before has left off, and in a
container that is made as one and the same state says. -/
inductive Executes (w : World) (state : RunState) : List (Step × Int) → Machine → Machine → Prop
  | nil (m : Machine) : Executes w state [] m m
  | cons {m m₁ m' : Machine} {r : List (Step × Int)} (s : Step) (code : Int)
      (ran : command w s m = (.ok code, m₁))
      (exits : w.engine.Exits (commandSpec w.settings state.ensureFiles s) code m.calls m₁.calls)
      (rest : Executes w state r m₁ m') : Executes w state ((s, code) :: r) m m'

/-- What comes of commands that are run one after another: each has its container and no other is made,
and of the state no more than the files and the live containers has changed. -/
structure Executed (w : World) (m : Machine) (ran : List (Step × Int)) (m' : Machine) : Prop where
  executes : Executes w m.state ran m m'
  specs : Event.specs m'.events =
    Event.specs m.events ++ ran.map fun e => commandSpec w.settings m.state.ensureFiles e.1
  works : Works m m'

/-- How commands that are run one after another end: all exit with zero; one exits with another code,
which is that of all, and nothing is done any more; or one is stopped as an engine stops it. -/
inductive InTurn (w : World) (m : Machine) (steps : List Step) : Except Stop Int × Machine → Prop
  | all (m' : Machine) (executed : Executed w m (steps.map (·, 0)) m') : InTurn w m steps (.ok 0, m')
  | failed (passed rest : List Step) (s : Step) (code : Int) (m' : Machine)
      (split : steps = passed ++ s :: rest) (nonzero : code ≠ 0)
      (executed : Executed w m (passed.map (·, 0) ++ [(s, code)]) m') :
      InTurn w m steps (.ok code, m')
  | stopped (passed rest : List Step) (s : Step) (reason : Stop) (m₁ m' : Machine)
      (split : steps = passed ++ s :: rest) (executed : Executed w m (passed.map (·, 0)) m₁)
      (ran : command w s m₁ = (.error reason, m')) (cause : w.engine.Causes reason) :
      InTurn w m steps (.error reason, m')

variable {state : RunState} {ran more : List (Step × Int)}

theorem Executes.specs (executes : Executes w state ran m m') :
    Event.specs m'.events =
      Event.specs m.events ++ ran.map fun e => commandSpec w.settings state.ensureFiles e.1 := by
  simp only [Event.specs_eq]
  induction executes with
  | nil m => simp
  | cons s code ran exits rest ih =>
    have own := exits.specs
    rw [Machine.calls, Machine.calls] at own
    rw [ih, own, List.map_cons, List.append_assoc, List.singleton_append]

theorem related_of_command {R : Machine → Machine → Prop} [IsPreorder Machine R]
    (frame : WorkFrame R) {outcome : Except Stop Int} (done : command w s m = (outcome, m')) :
    R m m' := by
  have related : R m (command w s m).2 := frame.rules.command s m
  rwa [done] at related

theorem Executes.works (executes : Executes w state ran m m') : Works m m' := by
  induction executes with
  | nil m => exact refl_of Works m
  | cons s code ran exits rest ih => exact trans_of Works (related_of_command workFrame_works ran) ih

theorem Executes.executed (executes : Executes w m.state ran m m') : Executed w m ran m' :=
  ⟨executes, executes.specs, executes.works⟩

/-- It does not matter in which state commands are said to be made, if their containers are the same. -/
theorem Executes.restate {state' : RunState} (executes : Executes w state ran m m')
    (same : ∀ s, commandSpec w.settings state.ensureFiles s =
      commandSpec w.settings state'.ensureFiles s) : Executes w state' ran m m' := by
  induction executes with
  | nil m => exact .nil m
  | cons s code ran exits rest ih => exact .cons s code ran (same s ▸ exits) ih

/-- A command that has exited leaves to those after it the state that they are made from. -/
theorem Executed.cons (first : command w s m = (.ok code, m₁)) (rest : Executed w m₁ ran m') :
    Executed w m ((s, code) :: ran) m' := by
  have same := commandSpec_of_works (related_of_command workFrame_works first)
    (related_of_command workFrame_grounded first) w.settings
  exact (Executes.cons s code first (command_eq_ok first) (rest.executes.restate same)).executed

theorem InTurn.cons {steps : List Step} {r : Except Stop Int × Machine}
    (first : command w s m = (.ok 0, m₁)) (rest : InTurn w m₁ steps r) : InTurn w m (s :: steps) r := by
  cases rest with
  | all m' executed => exact .all m' (.cons first executed)
  | failed passed rest s' code m' split nonzero executed =>
    exact .failed (s :: passed) rest s' code m' (congrArg (s :: ·) split) nonzero (.cons first executed)
  | stopped passed rest s' reason m₂ m' split executed ran cause =>
    exact .stopped (s :: passed) rest s' reason m₂ m' (congrArg (s :: ·) split) (.cons first executed)
      ran cause

theorem inTurn_commands (w : World) (steps : List Step) (m : Machine) :
    InTurn w m steps (commands w steps m) := by
  have begun (m : Machine) : Executed w m [] m := Executes.executed (.nil m)
  induction steps generalizing m with
  | nil => exact .all m (begun m)
  | cons s r ih =>
    unfold commands
    rw [bind_apply]
    rcases ran : command w s m with ⟨reason | code, m₁⟩
    · exact .stopped [] r s reason m m₁ rfl (begun m) ran (StopsBy.command s m reason m₁ ran)
    · dsimp only
      split
      · rename_i nonzero
        exact .failed [] r s code m₁ rfl nonzero (.cons ran (begun m₁))
      · rename_i zero
        cases not_not.mp zero
        exact .cons ran (ih m₁)

/-- An action of which every step has a command runs the commands in turn. Each is that of a step by
itself, with the variables of the action under those of its inputs, of the step that uses it and its
own; each is run in a container that is made from the state in which the action was begun, until one
exits with another code than zero, which is that of the action. Nothing is done after it, and nothing is
taken over from the files in between. -/
theorem described_runs_commands (w : World) (s : Step) (a : ActionMetadata) (files : Path)
    (m : Machine) (kind : a.runs.using_ = "composite")
    (commands : ∀ nested ∈ a.runs.steps, nested.run ≠ "") :
    InTurn w m (a.runs.steps.map (a.commandFor s)) (described w s a files m) := by
  rw [described_of_composite kind]
  unfold composite
  rw [compositeRefusal?_eq_none_iff.mpr commands]
  have same := List.map_congr_left fun nested (_ : nested ∈ a.runs.steps) =>
    nestedStep_eq_commandFor (s := s) (a := a) nested
  dsimp only
  rw [same]
  exact inTurn_commands w _ m

end Run

section Sample

/-- An action of three commands. -/
def ActionMetadata.threefold : ActionMetadata where
  name := "threefold"
  description := ""
  inputs := .ofList [("who", ⟨"", false, "nobody"⟩)]
  outputs := ∅
  runs := ⟨"composite", "", "",
    ["build", "test", "publish"].map fun line => { (default : Step) with run := line },
    .ofList [("INPUT_WHO", "action")]⟩

/-- An idle world in which the second container exits with five: the first has made seven calls. -/
def World.faltering : World :=
  { World.idle with
    engine := { World.idle.engine with
      behaviour := fun calls _ => if calls.length ≤ 7 then .idle else ⟨[], .exits 5 ""⟩ } }

/-- The machine of a run that has just begun. -/
def Machine.fresh : Machine := ⟨.initial "/work" (some (.opened "/files")), .sample, []⟩

theorem Run.described_runs_commands_of_threefold :
    ActionMetadata.threefold.runs.using_ = "composite" ∧
      (∀ nested ∈ ActionMetadata.threefold.runs.steps, nested.run ≠ "") ∧
      InTurn .faltering .fresh
        (ActionMetadata.threefold.runs.steps.map (ActionMetadata.threefold.commandFor default))
        (described .faltering default .threefold (.parse "/work") .fresh) ∧
      (described .faltering default .threefold (.parse "/work") .fresh).1.toOption = some 5 ∧
      (Event.specs (described .faltering default .threefold (.parse "/work") .fresh).2.events).map
        ContainerSpec.command = [["sh", "-c", "build"], ["sh", "-c", "test"]] :=
  ⟨rfl, by decide, described_runs_commands _ _ _ _ _ rfl (by decide), by decide +kernel,
    by decide +kernel⟩

end Sample

end Drydock
