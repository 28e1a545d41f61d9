import Drydock.Proofs.Run.Ground

set_option autoImplicit false
set_option relaxedAutoImplicit false

/-!
Where containers are created. Main statement: each container of a run is created in the work of a step
that was reached and whose condition held, in one of five ways, as the state says with the files in place.
-/

namespace Drydock

open Machine (Logs Rests Works)

/-- What is answered about the metadata of the action of a step, if it comes to asking for them. -/
def World.metadataOf? (w : World) (workingDir : String) (s : Step) :
    Option (Except MetadataFault ActionMetadata) :=
  match ActionRef.parse s.uses w.settings.defaultRef with
  | .path text => some (w.metadata ((Path.parse workingDir).child text).text)
  | .repository name ref =>
    let files := ActionRef.cachePath w.settings.actionCache name ref
    match w.clone ⟨ActionRef.url name, ref, files.text⟩ with
    | .ok () => some (w.metadata files.text)
    | .error _ => none
  | .image _ | .unsupported => none

theorem World.metadataOf?_of_path {w : World} {s : Step} {text : String}
    (named : ActionRef.parse s.uses w.settings.defaultRef = .path text) (workingDir : String) :
    w.metadataOf? workingDir s =
      some (w.metadata ((Path.parse workingDir).child text).text) := by
  unfold metadataOf?
  rw [named]

/-- The files are in place, and an image has been pulled. -/
def Machine.readied (m : Machine) (image : String) : Machine :=
  ({ m with state := m.state.ensureFiles }.emit (.imageChosen image)).emit (.called (.pull image))

/-- Nothing was run, shown, warned of or changed. -/
structure Machine.Untouched (m m' : Machine) : Prop where
  state : m'.state = m.state
  context : m'.context = m.context
  calls : m'.calls = m.calls
  console : ∀ debug, Event.console debug m'.events = Event.console debug m.events
  warnings : Event.warnings m'.events = Event.warnings m.events

theorem Machine.Untouched.refl (m : Machine) : m.Untouched m :=
  ⟨rfl, rfl, rfl, fun _ => rfl, rfl⟩

/-- To ask for the files of an action is neither a call nor shown. -/
theorem Machine.untouched_cloned (m : Machine) (c : Clone) : m.Untouched (m.emit (.cloned c)) where
  state := rfl
  context := rfl
  calls := by simp [calls, emit, Event.calls, Event.call?]
  console debug := by simp [emit, Event.console, Event.lines]
  warnings := by simp [emit, Event.warnings, Event.warning?]

namespace Run

open Engine (Call)

/-- The ways in which the work of a step, begun in a machine `m`, creates a container: the machine in
which it does, the layers of variables that the step has by itself, the highest first, and what the
container is, as a function of the state. -/
inductive Launch (w : World) (s : Step) (m : Machine) :
    StepKind → Machine → List (Bindings String) → (RunState → ContainerSpec) → Prop
  | command : Launch w s m .run m [s.env] (commandSpec w.settings · s)
  | reference (name : String)
      (named : ActionRef.parse s.uses w.settings.defaultRef = .image name) :
      Launch w s m .action m [s.env, inputEnvironment s.inputs] (imageSpec · s name s.inputs ∅)
  | docker (a : ActionMetadata) (m' : Machine)
      (asked : w.metadataOf? m.state.workingDir s = some (.ok a)) (same : m'.state = m.state)
      (kind : a.runs.using_ = "docker") :
      Launch w s m .action m' [s.env, inputEnvironment (a.inputsFor s), a.runs.env]
        (imageSpec · s (ActionRef.withoutScheme a.runs.image) (a.inputsFor s) a.runs.env)
  | node (a : ActionMetadata) (m' : Machine) (image main files : String)
      (asked : w.metadataOf? m.state.workingDir s = some (.ok a)) (same : m'.state = m.state)
      (kind : Platform.nodeImage? a.runs.using_ = some image) :
      Launch w s m .action m' [s.env, inputEnvironment (a.inputsFor s), a.runs.env]
        (nodeSpec · s image main files (a.inputsFor s) a.runs.env)
  | composite (a : ActionMetadata) (m' m'' : Machine) (passed rest : List Step) (nested : Step)
      (asked : w.metadataOf? m.state.workingDir s = some (.ok a)) (same : m'.state = m.state)
      (kind : a.runs.using_ = "composite") (steps : a.runs.steps = passed ++ nested :: rest)
      (done : commands w
        (passed.map (nestedStep s (layered s (a.inputsFor s) a.runs.env).env)) m' = (.ok 0, m'')) :
      Launch w s m .action m''
        [nested.env, s.env, inputEnvironment (a.inputsFor s), a.runs.env]
        (commandSpec w.settings · (nestedStep s (layered s (a.inputsFor s) a.runs.env).env nested))

/-- A container is created as the state says once the files are in place, right after its image has been
pulled. -/
structure Made (made : RunState → ContainerSpec) (m : Machine) (before : List Event)
    (spec : ContainerSpec) : Prop where
  same : spec = made (m.readied spec.image).state
  now : before = (m.readied spec.image).events

variable {α β : Type} {w : World} {x : Run α} {m m' m₀ : Machine} {before : List Event} {e : Event}
  {s : Step} {spec : ContainerSpec}

section Emission

/-- A call that a part of a run notes is among the calls that it makes. -/
theorem Emits.mem_calls {c : Call} {own : List Call} (emits : Emits x m before (.called c))
    (calls : (x m).2.calls = m.calls ++ own) : c ∈ own := by
  obtain ⟨⟨es, rfl⟩, rest, noted⟩ := emits
  have split : (x m).2.calls = m.calls ++ (Event.calls es ++ c :: Event.calls rest) := by
    rw [Machine.calls, ← noted, Event.calls_append, Event.calls_append, Event.calls_append]
    simp [Event.calls, Event.call?, Machine.calls]
  rw [split, List.append_cancel_left_eq] at calls
  rw [← calls]
  simp

theorem Emits.not_of_rests {c : Call} (rests : Rests m (x m).2) : ¬ Emits x m before (.called c) := by
  intro emits
  have calls : (x m).2.calls = m.calls ++ [] := rests.calls.trans (List.append_nil _).symm
  simpa using emits.mem_calls calls

theorem Keeps.logs_works (works : Keeps Works x) : Keeps (Logs 0) x :=
  fun m => (works m).logs

/-- While a container is tracked, no other one is created. -/
theorem not_emits_create_of_track (step name : String) (made spec : ContainerSpec) :
    ¬ Emits (track w step made name) m before (.called (.create spec)) := by
  intro emits
  obtain ⟨used, use, calls, -⟩ := tracked w step made name m
  have member := emits.mem_calls calls
  exact Engine.create_notMem_disposal use spec member

theorem logs_track (step name : String) (made : ContainerSpec) :
    Keeps (Logs 0) (track w step made name) := by
  have frame := workFrame_works
  refine Keeps.logs_works (Keeps.bind (.change fun m => frame.live m _) fun _ => ?_)
  refine (frame.follow made name).attempt.bind fun outcome => ?_
  exact (frame.dispose step name).bind fun _ => .settle outcome

theorem Emits.of_container {step : String} {made : ContainerSpec}
    (emits : Emits (container w step made) m before (.called (.create spec))) :
    spec = made ∧
      before = ((m.emit (.imageChosen made.image)).emit (.called (.pull made.image))).events := by
  have tracking (name : String) : Keeps (Logs 0) (track w step made name) := logs_track step name made
  have creating : Keeps (Logs 0) (create w made >>= track w step made) :=
    (workFrame_works.create made).logs_works.bind tracking
  have pulling : Keeps (Logs 0) (call w (.pull made.image)) :=
    (workFrame_works.call _).logs_works
  rcases emits.bind_inv fun _ => pulling.bind fun _ => creating with chosen | ⟨_, _, ran, emits⟩
  · cases (chosen.of_single rfl).2
  cases ran
  rcases emits.bind_inv fun _ => creating with pulled | ⟨_, m₁, ran, emits⟩
  · have single := call_state w (.pull made.image) (m.emit (.imageChosen made.image))
    cases (pulled.of_single (congrArg Machine.events single)).2
  have pulled : m₁ = (m.emit (.imageChosen made.image)).emit (.called (.pull made.image)) := by
    rw [← call_state w, ran]
  -- Once there is a container, it is followed and disposed of, and none is created any more.
  rcases emits.bind_inv tracking with created | ⟨name, _, _, tracked⟩
  · rcases created.bind_inv (n := 0) fun _ => .read _ with asked | ⟨_, _, _, named⟩
    · have single := call_state w (.create made) m₁
      obtain ⟨start, same⟩ := asked.of_single (congrArg Machine.events single)
      cases same
      exact ⟨rfl, start.trans (congrArg Machine.events pulled)⟩
    · exact absurd named (not_of_stays rfl)
  · exact absurd tracked (not_emits_create_of_track step name made spec)

theorem Emits.of_prepared {step : String} {made : RunState → ContainerSpec}
    (emits : Emits (prepared w step made) m before (.called (.create spec))) :
    Made made m before spec := by
  have inner : Emits (container w step (made m.state.ensureFiles))
      { m with state := m.state.ensureFiles } before (.called (.create spec)) := emits
  obtain ⟨rfl, start⟩ := inner.of_container
  exact ⟨rfl, start⟩

/-- A container that commands create is created by one of them, when those before it have succeeded. -/
theorem Emits.of_commands {steps : List Step}
    (emits : Emits (commands w steps) m before (.called (.create spec))) :
    ∃ passed s rest m', steps = passed ++ s :: rest ∧ commands w passed m = (.ok 0, m') ∧
      Made (commandSpec w.settings · s) m' before spec := by
  -- Each command starts from the machine that the ones before it have left.
  induction steps generalizing m with
  | nil => exact absurd emits (not_of_stays rfl)
  | cons s r ih =>
    have more (code : Int) :
        Keeps (Logs 0) (if code ≠ 0 then pure code else commands w r : Run Int) := by
      split
      · exact .pure code
      · exact (workFrame_works.rules.commands r).logs_works
    rcases emits.bind_inv more with first | ⟨code, m₁, ran, later⟩
    · have own : Emits (prepared w s.id (commandSpec w.settings · s)) m before _ := first
      exact ⟨[], s, r, m, rfl, rfl, own.of_prepared⟩
    · split at later
      · exact absurd later (not_of_stays rfl)
      rename_i zero
      obtain ⟨passed, s', rest, m₂, rfl, done, made⟩ := ih later
      refine ⟨s :: passed, s', rest, m₂, rfl, bind_eq_ok.mpr ⟨code, m₁, ran, ?_⟩, made⟩
      rw [if_neg zero]
      exact done

theorem Emits.of_composite {a : ActionMetadata}
    (asked : w.metadataOf? m₀.state.workingDir s = some (.ok a)) (same : m.state = m₀.state)
    (kind : a.runs.using_ = "composite")
    (emits : Emits (composite w s a) m before (.called (.create spec))) :
    ∃ m' layers made, Launch w s m₀ .action m' layers made ∧ Made made m' before spec := by
  unfold composite at emits
  split at emits
  · exact absurd emits (not_of_stays rfl)
  obtain ⟨passed', _, rest', m', split, done, made⟩ := emits.of_commands
  obtain ⟨passed, rest, steps, rfl, last⟩ := List.map_eq_append_iff.mp split
  obtain ⟨nested, rest, rfl, rfl, rfl⟩ := List.map_eq_cons_iff.mp last
  exact ⟨m', _, _, .composite a m m' passed rest nested asked same kind steps done, made⟩

theorem Emits.of_described {a : ActionMetadata} {files : Path}
    (asked : w.metadataOf? m₀.state.workingDir s = some (.ok a)) (same : m.state = m₀.state)
    (emits : Emits (described w s a files) m before (.called (.create spec))) :
    ∃ m' layers made, Launch w s m₀ .action m' layers made ∧ Made made m' before spec := by
  unfold described at emits
  split at emits
  · rename_i docker
    split at emits
    · exact absurd emits (not_of_stays rfl)
    split at emits
    · exact absurd emits (not_of_stays rfl)
    have own : Emits (prepared w s.id (imageSpec · s (ActionRef.withoutScheme a.runs.image)
      (a.inputsFor s) a.runs.env)) m before _ := emits
    exact ⟨m, _, _, .docker a m asked same docker, own.of_prepared⟩
  split at emits
  · rename_i image kind
    have own : Emits (prepared w s.id (nodeSpec · s image _ _ (a.inputsFor s) a.runs.env))
      m before _ := emits
    exact ⟨m, _, _, .node a m image _ _ asked same kind, own.of_prepared⟩
  split at emits
  · rename_i composite
    exact emits.of_composite asked same composite
  · exact absurd emits (not_of_stays rfl)

theorem clone_of_ok {c : Clone} (answer : w.clone c = .ok ()) (m : Machine) :
    clone w c m = (.ok (), m.emit (.cloned c)) := by
  unfold clone
  rw [answer]
  rfl

theorem clone_eq_ok {c : Clone} (cloned : clone w c m = (.ok (), m')) : w.clone c = .ok () := by
  unfold clone at cloned
  rcases answer : w.clone c with (message | program) | _ <;> rw [answer] at cloned <;> cases cloned

theorem metadata_eq_ok {uses : String} {files : Path} {a : ActionMetadata}
    (loaded : metadata w uses files m = (.ok a, m')) : w.metadata files.text = .ok a ∧ m' = m := by
  unfold metadata at loaded
  rcases answer : w.metadata files.text with (message | fault | fault) | a' <;>
    rw [answer] at loaded <;> cases loaded
  exact ⟨rfl, rfl⟩

/-- If it comes to asking for the metadata of an action, nothing has been done by then but to ask for its
files, and all that follows depends on the answer. -/
theorem action_of_asked {answer : Except MetadataFault ActionMetadata}
    (asked : w.metadataOf? m.state.workingDir s = some answer) :
    ∃ (files : Path) (m₁ : Machine), w.metadata files.text = answer ∧ m.Untouched m₁ ∧
      action w s m = (metadata w s.uses files >>= fun a => described w s a files) m₁ := by
  unfold action
  unfold World.metadataOf? at asked
  cases named : ActionRef.parse s.uses w.settings.defaultRef with
  | path text =>
    rw [named] at asked
    exact ⟨_, m, Option.some.inj asked, .refl m, rfl⟩
  | repository name ref =>
    rw [named] at asked
    dsimp only at asked ⊢
    split at asked
    · rename_i cloned
      rw [bind_apply, clone_of_ok cloned]
      exact ⟨_, _, Option.some.inj asked, m.untouched_cloned _, rfl⟩
    · cases asked
  | image name =>
    rw [named] at asked
    cases asked
  | unsupported =>
    rw [named] at asked
    cases asked

theorem logs_loaded (w : World) (s : Step) (files : Path) :
    Keeps (Logs 0) (metadata w s.uses files >>= fun a => described w s a files) := by
  have loading : Keeps Works (metadata w s.uses files) := .of_stays (metadata_stays w s.uses files)
  exact (loading.bind fun a => workFrame_works.rules.described s a files).logs_works

/-- Once the files of an action are there, a container is created by what its metadata describe. -/
theorem Emits.of_loaded {files : Path}
    (answer : w.metadataOf? m₀.state.workingDir s = some (w.metadata files.text))
    (same : m.state = m₀.state)
    (emits : Emits (metadata w s.uses files >>= fun a => described w s a files) m before
      (.called (.create spec))) :
    ∃ m' layers made, Launch w s m₀ .action m' layers made ∧ Made made m' before spec := by
  have describing (a : ActionMetadata) : Keeps (Logs 0) (described w s a files) :=
    (workFrame_works.rules.described s a files).logs_works
  rcases emits.bind_inv describing with loading | ⟨a, m₁, ran, later⟩
  · exact absurd loading (not_of_stays (congrArg _ (metadata_stays w s.uses files m)))
  · obtain ⟨loaded, rfl⟩ := metadata_eq_ok ran
    exact later.of_described (answer.trans (congrArg some loaded)) same

theorem Emits.of_action (emits : Emits (action w s) m before (.called (.create spec))) :
    ∃ m' layers made, Launch w s m .action m' layers made ∧ Made made m' before spec := by
  unfold action at emits
  cases named : ActionRef.parse s.uses w.settings.defaultRef with
  | path text =>
    rw [named] at emits
    exact Emits.of_loaded (m := m) (w.metadataOf?_of_path named _) rfl emits
  | image name =>
    rw [named] at emits
    dsimp only at emits
    split at emits
    · exact absurd emits (not_of_stays rfl)
    have own : Emits (prepared w s.id (imageSpec · s name s.inputs ∅)) m before _ := emits
    exact ⟨m, _, _, .reference name named, own.of_prepared⟩
  | repository name ref =>
    rw [named] at emits
    dsimp only at emits
    rcases emits.bind_inv fun _ => logs_loaded w s _ with cloning | ⟨_, m₁, ran, later⟩
    · obtain ⟨outcome, ran, -⟩ := clone_apply w ⟨ActionRef.url name, ref, _⟩ m
      cases (cloning.of_single (congrArg (fun r => r.2.events) ran)).2
    have cloned := clone_eq_ok ran
    cases (clone_of_ok cloned m).symm.trans ran
    have same (c : Clone) : (m.emit (.cloned c)).state = m.state := rfl
    refine later.of_loaded ?_ (same _)
    unfold World.metadataOf?
    rw [named]
    dsimp only
    rw [cloned]
  | unsupported =>
    rw [named] at emits
    exact absurd emits (not_of_stays rfl)

theorem Emits.of_work {kind : StepKind}
    (emits : Emits (work w s kind) m before (.called (.create spec))) :
    ∃ m' layers made, Launch w s m kind m' layers made ∧ Made made m' before spec := by
  cases kind with
  | run =>
    have own : Emits (prepared w s.id (commandSpec w.settings · s)) m before _ := emits
    exact ⟨m, _, _, .command, own.of_prepared⟩
  | action => exact emits.of_action

/-- What comes after the work of a step makes no calls. -/
theorem rests_finish (w : World) (s : Step) (outcome : Except Stop Int) : Keeps Rests (finish s outcome) := by
  intro m
  have taken : Rests m (collect m).2 := (still_collect m).rests
  rcases ended : finish s outcome m with ⟨reason | _, m'⟩
  · obtain ⟨m₁, rfl | rfl, rfl | ⟨f, rfl⟩⟩ := finish_eq_error ended
    · exact refl_of Rests _
    · exact rests_deplore s f _
    · exact taken
    · exact trans_of _ taken (rests_deplore s f _)
  · obtain ⟨-, values, m₁, collected, rfl⟩ := finish_eq_ok ended
    rw [collected] at taken
    exact trans_of _ taken (rests_deliver w s values m₁)

theorem Emits.of_step {c : Call} (emits : Emits (step w s) m before (.called c)) :
    ∃ kind, s.work? = some kind ∧ Emits (work w s kind) (m.begin_ s) before (.called c) := by
  cases works : s.work? with
  | none =>
    have idle : (step w s m).2.events = m.events := by rw [step_of_no_work works]; rfl
    exact absurd emits (not_of_stays idle)
  | some kind =>
    have same : step w s m = (attempt (work w s kind) >>= finish s) (m.begin_ s) :=
      step_of_work works w m
    have begun : Emits (attempt (work w s kind) >>= finish s) (m.begin_ s) before (.called c) := by
      refine ⟨emits.1, ?_⟩
      rw [← same]
      exact emits.2
    have finishing (outcome : Except Stop Int) : Keeps (Logs 1) (finish s outcome) :=
      (keeps_finish s outcome).logs
    rcases begun.bind_inv finishing with worked | ⟨outcome, m₁, -, late⟩
    · exact ⟨kind, rfl, worked⟩
    · exact absurd late (not_of_rests (rests_finish w s outcome m₁))

end Emission

end Run

namespace Visit

open Engine (Call)
open Run (Emits)

variable {w : World} {v : Visit} {before : List Event} {c : Call}

/-- A call of a step is made in its work, and the condition of the step held. -/
theorem work_of_emits (emits : Emits (Run.reach w v.index v.total v.step) v.start before (.called c)) :
    v.attempted = true ∧ ∃ kind, v.step.work? = some kind ∧
      Emits (Run.work w v.step kind) (v.arrival.begin_ v.step) before (.called c) := by
  have judging : Run.Keeps (Logs 2) (Run.admitted v.step) := .of_stays (Run.admitted_stays v.step)
  have turning (verdict : Bool) : Run.Keeps (Logs 2) (Run.turn w v.step verdict) :=
    (Run.keeps_turn w v.step verdict).logs
  rcases emits.bind_inv fun _ => judging.bind turning with announced | ⟨_, _, ran, emits⟩
  · cases (announced.of_single rfl).2
  cases ran
  rcases emits.bind_inv turning with judged | ⟨verdict, m, judged, emits⟩
  · exact absurd judged (Emits.not_of_stays (congrArg _ (Run.admitted_stays v.step v.arrival)))
  have judged : Run.admitted v.step v.arrival = (.ok verdict, m) := judged
  obtain rfl : m = v.arrival := by
    rw [← Run.admitted_stays v.step v.arrival, judged]
  cases verdict with
  | false => cases (emits.of_single (Run.events_skip v.step _)).2
  | true =>
    have attempted : v.attempted = true := by
      unfold Visit.attempted
      rw [judged]
    have succeeding : Run.Keeps (Logs 1) (Run.emit (.stepSucceeded v.step.displayName)) :=
      .logs_single (fun _ => rfl) fun _ => Nat.le_refl 1
    have done : Emits (Run.step w v.step >>= fun _ => Run.emit (.stepSucceeded v.step.displayName))
      v.arrival before (.called c) := emits
    rcases done.bind_inv fun _ => succeeding with own | ⟨_, m, -, last⟩
    · exact ⟨attempted, own.of_step⟩
    · cases (last.of_single rfl).2

end Visit

namespace Run

open Engine (Call)

variable {w : World} {m m' : Machine} {reached : List Visit} {v : Visit}

/-- Each call is made by a step that was reached. -/
def Attributed (w : World) (reached : List Visit) (m : Machine) : Prop :=
  ∀ before c after, m.events = before ++ .called c :: after →
    ∃ earlier v later, reached = earlier ++ v :: later ∧
      Emits (reach w v.index v.total v.step) v.start before (.called c)

theorem Attributed.around (attributed : Attributed w reached m) (around : Machine.Around m m') :
    Attributed w reached m' := by
  intro before c after noted
  obtain ⟨es, events, outer⟩ := around.events
  rw [events] at noted
  rcases append_eq_append_cons noted with ⟨more, inner, -⟩ | ⟨more, -, new⟩
  · exact attributed before c more inner
  · have far := outer (.called c) (new ▸ List.mem_append_right _ List.mem_cons_self)
    cases far

theorem Attributed.result (attributed : Attributed w reached v.start) :
    Attributed w (reached ++ [v]) (v.result w).2 := by
  intro before c after noted
  obtain ⟨own, events, -⟩ := (keeps_reach w v.step v.index v.total v.start).logs
  have grown : (v.result w).2.events = v.start.events ++ own := events
  rcases append_eq_append_cons (grown.symm.trans noted) with ⟨more, inner, -⟩ | ⟨more, rfl, -⟩
  · obtain ⟨earlier, u, later, rfl, emits⟩ := attributed before c more inner
    exact ⟨earlier, u, later ++ [v], by simp, emits⟩
  · refine ⟨reached, v, [], rfl, List.prefix_append _ _, after, ?_⟩
    exact (List.append_assoc _ _ _).trans noted.symm

theorem handsOn_attributed (w : World) : HandsOn w (Attributed w) (Attributed w) where
  around around attributed := attributed.around around
  passed attributed ended := by simpa [ended] using attributed.result
  stopped attributed ended := by simpa [ended] using attributed.result
  aroundFinal around attributed := attributed.around around
  final_of_going attributed := attributed

end Run

section Execution

variable {w : World} {workingDir directory : String} {workflow : Workflow} {p : Plan} {c : Context}

/-- Each container of a run is created in the work of a step that was reached and whose condition
held. -/
theorem launch_of_execute {before after : List Event} {spec : ContainerSpec}
    (noted : (workflow.execute w workingDir (.ok directory) p c).events =
      before ++ .called (.create spec) :: after) :
    ∃ earlier v later kind m layers made,
      workflow.visits w workingDir (.ok directory) p c = earlier ++ v :: later ∧
      v.attempted = true ∧ v.step.work? = some kind ∧
      Run.Launch w v.step (v.arrival.begin_ v.step) kind m layers made ∧
      Run.Made made m before spec := by
  have start : Run.Attributed w [] (.initial workingDir directory c) :=
    fun before _ _ none => by simp [Machine.initial] at none
  have handed : Run.Handed _ (Run.Attributed w) []
      (workflow.visits w workingDir (.ok directory) p c)
      (Run.jobs w workflow.jobs p.jobs (.initial workingDir directory c)) :=
    (Run.handsOn_attributed w).jobs start
  rw [events_of_execute] at noted
  rcases append_eq_append_cons noted with ⟨more, inner, -⟩ | ⟨more, -, last⟩
  · obtain ⟨earlier, v, later, split, emits⟩ := handed.final before _ more inner
    obtain ⟨attempted, kind, works, emits⟩ := Visit.work_of_emits emits
    obtain ⟨m, layers, made, launch, placed⟩ := emits.of_work
    exact ⟨earlier, v, later, kind, m, layers, made, split, attempted, works, launch, placed⟩
  · rcases List.cons_eq_append_iff.mp last with ⟨-, closed⟩ | ⟨_, -, none⟩
    · cases closed
    · simp at none

end Execution

end Drydock
