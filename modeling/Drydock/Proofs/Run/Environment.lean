import Drydock.Proofs.Run.Agreement
import Drydock.Proofs.Run.Launch
import Mathlib

set_option autoImplicit false
set_option relaxedAutoImplicit false

/-!
The variables and mounts of containers. Main statement: in every container of a run a variable is what
the platform fixes, and else what the first of the layers says that has it, from the command itself down
to the container of the job; and every container sees the workspace and both files, which are there.
-/

namespace Drydock

open Machine (Grounded)

theorem Bindings.findSome?_layers {α : Type} (b : Bindings α) (layers : List (Bindings α))
    (key : String) : (b :: layers).findSome? (·.get? key) =
      (b.get? key).or (layers.findSome? (·.get? key)) := by
  rw [List.findSome?_cons]
  cases b.get? key <;> rfl

section Inputs

/-- The default of an input, unless it is empty. -/
def ActionInput.given? (i : ActionInput) : Option String :=
  if i.default = "" then none else some i.default

/-- What a step gives counts before the default of an input. -/
theorem ActionMetadata.get?_inputsFor (a : ActionMetadata) (s : Step) (name : String) :
    (a.inputsFor s).get? name =
      (s.inputs.get? name).or ((a.inputs.get? name).bind ActionInput.given?) := by
  have defaults (e : String × ActionInput) :
      (if e.2.default = "" then none else some (e.1, e.2.default)) =
        e.2.given?.map fun v => (e.1, v) := by
    unfold ActionInput.given?
    split <;> rfl
  have nodup := a.inputs.nodup.sublist (sublist_filterMap ActionInput.given? a.inputs.entries)
  unfold inputsFor
  simp only [defaults]
  rw [Bindings.get?_update]
  congr 1
  rw [Bindings.get?, Bindings.entries_ofList nodup, valueOf?_filterMap _ a.inputs.nodup]
  rfl

/-- Of the inputs that have the same variable, the last one counts. -/
theorem get?_inputEnvironment (inputs : Bindings String) (key : String) :
    (inputEnvironment inputs).get? key =
      ((inputs.entries.filter fun e => inputVariable e.1 = key).getLast?).map Prod.snd := by
  unfold inputEnvironment Bindings.ofList
  rw [Bindings.get?_insertAll_last, List.filter_map, List.getLast?_map]
  simp [Function.comp_def]

end Inputs

/-- The variables that the platform fixes. -/
def Platform.allFixed : List (String × String) :=
  environment ++ fileEnvironment

/-- Variables that are those of the platform, and else those of layers, the highest first. -/
structure Platform.Tops (layers : List (Bindings String)) (env : Bindings String) : Prop where
  fixed : ∀ e ∈ allFixed, env.get? e.1 = some e.2
  others : ∀ key ∉ allFixed.map Prod.fst, env.get? key = layers.findSome? (·.get? key)

/-- The variables of a job below those that its steps set: its own, and those of its container. -/
def Job.layers (j : Job) : List (Bindings String) :=
  [j.env, (j.container.map Container.env).getD ∅]

theorem Platform.nodup_allFixed : (allFixed.map Prod.fst).Nodup := by
  decide

theorem Platform.Tops.of_eq {layers : List (Bindings String)} {env : Bindings String}
    (same : ∀ key, env.get? key =
      (valueOf? key allFixed).or (layers.findSome? (·.get? key))) : Tops layers env where
  fixed e member := by
    rw [same, (valueOf?_eq_some_iff nodup_allFixed).mpr member]
    rfl
  others key absent := by
    rw [same, valueOf?_eq_none_iff.mpr absent]
    rfl

theorem FileState.isPresent_ensure (s : FileState) : s.ensure.isPresent = true := by
  cases s <;> rfl

theorem RunState.get?_stepEnvironment {state : RunState} {run : JobRun} {c : Channel}
    (running : state.job = some run) (opened : state.channel = some c) (s : Step) (key : String) :
    (state.stepEnvironment s).get? key = (valueOf? key Platform.allFixed).or
      ((s.env.get? key).or ((state.env :: run.job.layers).findSome? (·.get? key))) := by
  have merged : state.stepEnvironment s =
      (((state.jobEnvironment.update state.env).update s.env)).insertAll Platform.allFixed := by
    unfold stepEnvironment Platform.allFixed Bindings.insertAll
    rw [opened, List.foldl_append]
    rfl
  have below : state.jobEnvironment =
      ((run.job.container.map Container.env).getD ∅).update run.job.env := by
    unfold jobEnvironment
    rw [running]
  rw [merged, Bindings.get?_insertAll Platform.nodup_allFixed, Bindings.get?_update,
    Bindings.get?_update, below, Bindings.get?_update]
  simp only [Job.layers, Bindings.findSome?_layers, List.findSome?_nil, Option.or_none]

theorem Run.get?_layered (s : Step) (inputs runsEnv : Bindings String) (key : String) :
    (Run.layered s inputs runsEnv).env.get? key =
      [s.env, inputEnvironment inputs, runsEnv].findSome? (·.get? key) := by
  unfold layered
  rw [Bindings.get?_update, Bindings.get?_update]
  simp only [Bindings.findSome?_layers, List.findSome?_nil, Option.or_none]

/-- What a container is given when it is created in a machine. -/
structure ContainerSpec.Equipped (spec : ContainerSpec) (m : Machine)
    (layers : List (Bindings String)) (workingDir directory : String) : Prop where
  env : Platform.Tops layers spec.env
  workspace : Mount.bind workingDir Platform.workspaceMount ∈ spec.mounts
  files : ∃ c, m.state.channel = some c ∧ c.directory = directory ∧ ∀ slot,
    (c.get slot).isPresent = true ∧ Mount.bind (c.path slot) slot.mountPoint ∈ spec.mounts

theorem Run.related_of_commands {R : Machine → Machine → Prop} [IsPreorder Machine R]
    (frame : WorkFrame R) {w : World} {steps : List Step} {m m' : Machine} {outcome : Except Stop Int}
    (done : commands w steps m = (outcome, m')) : R m m' := by
  have related : R m (commands w steps m).2 := frame.rules.commands steps m
  rwa [done] at related

namespace Run.Launch

variable {w : World} {s : Step} {m m' : Machine} {kind : StepKind} {layers : List (Bindings String)}
  {made : RunState → ContainerSpec}

/-- The layers of a step are those of the step that its container is made for. -/
theorem environment (launch : Launch w s m kind m' layers made) :
    ∃ s' : Step, (∀ state, (made state).env = state.stepEnvironment s') ∧
      ∀ key, s'.env.get? key = layers.findSome? (·.get? key) := by
  cases launch with
  | command => exact ⟨s, fun _ => rfl, fun key => by simp⟩
  | reference name named => exact ⟨_, fun _ => rfl, fun key => get?_layered s s.inputs ∅ key⟩
  | docker a m' asked same kind => exact ⟨_, fun _ => rfl, get?_layered s _ _⟩
  | node a m' image main files asked same kind => exact ⟨_, fun _ => rfl, get?_layered s _ _⟩
  | composite a m' m'' passed rest nested asked same kind steps done =>
    refine ⟨_, fun _ => rfl, fun key => ?_⟩
    change ((layered s (a.inputsFor s) a.runs.env).env.update nested.env).get? key = _
    rw [Bindings.get?_update, get?_layered, ← Bindings.findSome?_layers]

theorem mounts_subset (launch : Launch w s m kind m' layers made) (state : RunState) :
    state.mounts ⊆ (made state).mounts := by
  cases launch with
  | node a m' image main files asked same kind => exact List.subset_append_left _ _
  | _ => exact List.Subset.refl _

/-- Until a container is created, work leaves where it stands as it was, and all variables. -/
theorem grounded (launch : Launch w s m kind m' layers made) :
    Grounded m m' ∧ m'.state.env = m.state.env := by
  have unmoved {m₁ : Machine} (same : m₁.state = m.state) :
      Grounded m m₁ ∧ m₁.state.env = m.state.env :=
    ⟨⟨by rw [same], by rw [same], by rw [same]⟩, by rw [same]⟩
  cases launch with
  | command => exact ⟨refl_of Grounded m, rfl⟩
  | reference name named => exact ⟨refl_of Grounded m, rfl⟩
  | docker a m' asked same kind => exact unmoved same
  | node a m' image main files asked same kind => exact unmoved same
  | composite a m₁ m' passed rest nested asked same kind steps done =>
    have moved : Grounded m₁ m' := related_of_commands workFrame_grounded done
    have works : Machine.Works m₁ m' := related_of_commands workFrame_works done
    refine ⟨trans_of _ (unmoved same).1 moved, ?_⟩
    rw [works.state, same]

/-- A container is given all this when it is created in a machine. -/
theorem equipped {spec : ContainerSpec} {run : JobRun} {workingDir directory : String}
    (launch : Launch w s m kind m' layers made) (same : spec = made (m'.readied spec.image).state)
    (running : m.state.job = some run) (placed : m.state.workingDir = workingDir)
    (opened : m.state.channel.map Channel.directory = some directory) :
    spec.Equipped (m'.readied spec.image) (layers ++ m.state.env :: run.job.layers) workingDir
      directory := by
  -- Up to the creation, the state differs from that of the step in the files at most.
  obtain ⟨grounded, env⟩ := launch.grounded
  obtain ⟨s', own, above⟩ := launch.environment
  obtain ⟨c, opened', there⟩ := Option.map_eq_some_iff.mp (grounded.directory.trans opened)
  have channel : (m'.readied spec.image).state.channel = some c.ensureFiles := by
    change m'.state.channel.map Channel.ensureFiles = _
    rw [opened']
    rfl
  have mounts : (m'.readied spec.image).state.mounts ⊆ spec.mounts :=
    same.symm ▸ launch.mounts_subset _
  refine ⟨.of_eq fun key => ?_, mounts ?_, c.ensureFiles, channel, there, fun slot => ⟨?_, ?_⟩⟩
  · have running' : (m'.readied spec.image).state.job = some run := grounded.job.trans running
    have env' : (m'.readied spec.image).state.env = m.state.env := env
    rw [same, own, RunState.get?_stepEnvironment running' channel, above, env',
      List.findSome?_append]
  · have placed' : (m'.readied spec.image).state.workingDir = workingDir :=
      grounded.workingDir.trans placed
    rw [← placed']
    exact List.mem_cons_self
  · rw [Channel.get_ensureFiles]
    exact FileState.isPresent_ensure _
  · exact mounts (mem_mounts channel slot)

end Run.Launch

/-- The variables of every container that a run creates are those that the platform fixes, and else the
highest that the layers have: what the container's own step says in one of five ways, what the steps
so far have handed on, and what their job and its container say. Every container has the workspace and
both files, which are there when it is created. -/
theorem Workflow.execute_layers_variables (w : World) (workingDir : String)
    (scratch : Except FileFault String) (workflow : Workflow) (p : Plan) (c : Context) :
    (∀ before spec after, (workflow.execute w workingDir scratch p c).events =
        before ++ .called (.create spec) :: after →
      ∃ directory earlier v later j kind m layers made, scratch = .ok directory ∧
        workflow.visits w workingDir scratch p c = earlier ++ v :: later ∧ v.attempted = true ∧
        workflow.jobs.get? v.job = some j ∧ v.step ∈ j.steps ∧ v.step.work? = some kind ∧
        Run.Launch w v.step (v.arrival.begin_ v.step) kind m layers made ∧
        Run.Made made m before spec ∧
        spec.Equipped (m.readied spec.image) (layers ++ Visit.creditedEnv w earlier :: j.layers)
          workingDir directory) ∧
    (∀ (a : ActionMetadata) (s : Step) (name : String), (a.inputsFor s).get? name =
      (s.inputs.get? name).or ((a.inputs.get? name).bind ActionInput.given?)) ∧
    ∀ (inputs : Bindings String) (key : String), (inputEnvironment inputs).get? key =
      ((inputs.entries.filter fun e => inputVariable e.1 = key).getLast?).map Prod.snd := by
  refine ⟨fun before spec after noted => ?_, ActionMetadata.get?_inputsFor, get?_inputEnvironment⟩
  cases scratch with
  | error fault => simp [Workflow.execute] at noted
  | ok directory =>
    obtain ⟨earlier, v, later, kind, m, layers, made, split, attempted, works, launch, same, now⟩ :=
      launch_of_execute noted
    have member : v ∈ workflow.visits w workingDir (.ok directory) p c :=
      split ▸ List.mem_append_right _ List.mem_cons_self
    obtain ⟨j, declared, listed, running⟩ := Run.mem_visits member
    have stands := stands_of_visit member
    obtain ⟨accounted, -⟩ := accounted_of_visit split
    refine ⟨directory, earlier, v, later, j, kind, m, layers, made, rfl, split, attempted, declared,
      listed, works, launch, ⟨same, now⟩, ?_⟩
    rw [← accounted.env]
    exact launch.equipped same running stands.workingDir stands.directory

section Sample

/-- An action of one command, with variables and inputs of its own. -/
def ActionMetadata.layering : ActionMetadata where
  name := "layering"
  description := ""
  inputs := .ofList [("who", ⟨"", false, "nobody"⟩), ("how", ⟨"", false, ""⟩)]
  outputs := ∅
  runs := ⟨"composite", "", "",
    [{ (default : Step) with
        run := "make", env := .ofList [("N", "nested"), ("RUNNER_OS", "other")] }],
    .ofList [("INPUT_WHO", "action"), ("D", "action")]⟩

/-- A job that sets variables, with a step that does so and uses an action. -/
def Workflow.layering : Workflow where
  name := "layering"
  on := .text "push"
  env := ∅
  jobs := .ofList [("build", { (default : Job) with
    env := .ofList [("D", "job"), ("J", "job")]
    steps := [{ (default : Step) with uses := "./act", env := .ofList [("N", "step")] }] })]

/-- An idle world with that action everywhere. -/
def World.layering : World :=
  { World.idle with metadata := fun _ => .ok .layering }

set_option maxRecDepth 10000 in
example :
    (Workflow.layering.plan .sample).toOption.map (fun p =>
      (Event.specs (Workflow.layering.execute .layering "/work" (.ok "/files") p .sample).events).map
        fun spec => ["RUNNER_OS", "N", "INPUT_WHO", "INPUT_HOW", "D", "J"].map spec.env.get?) =
      some [[some "Linux", some "nested", some "nobody", none, some "action", some "job"]] := by
  cbv

end Sample

end Drydock
