import Drydock.Proofs.Run.Work

set_option autoImplicit false
set_option relaxedAutoImplicit false

/-!
Two runs side by side. The machine of the second is that of the first with other data of conditions
and other events, both made from those of the first. Main statement: if the two worlds differ at most
in which containers they refuse to dispose of, and what makes the second machine from the first goes
along with each thing that runs do, then it goes along with whole runs: they end alike, with the same
state.
-/

namespace Drydock

/-- A call that gets rid of a container. -/
def Engine.Call.disposes : Engine.Call → Bool
  | .stop _ | .remove _ => true
  | _ => false

/-- An event of getting rid of a container. -/
def Event.isDisposal : Event → Bool
  | .called c => c.disposes
  | .tidyingFailed _ _ => true
  | _ => false

/-- Only the answers to stopping and to removing containers may differ. -/
structure World.Twins (w w' : World) : Prop where
  refuses : ∀ calls c, c.disposes = false → w'.engine.refuses calls c = w.engine.refuses calls c
  identifier : w'.engine.identifier = w.engine.identifier
  behaviour : w'.engine.behaviour = w.engine.behaviour
  clone : w'.clone = w.clone
  metadata : w'.metadata = w.metadata
  settings : w'.settings = w.settings
  currentDir : w'.currentDir = w.currentDir

theorem World.Twins.refl (w : World) : w.Twins w :=
  ⟨fun _ _ _ => rfl, rfl, rfl, rfl, rfl, rfl, rfl⟩

def Machine.recast (g : Context → Context) (h : List Event → List Event) (m : Machine) : Machine :=
  ⟨m.state, g m.context, h m.events⟩

def Outcome.recast (g : Context → Context) (h : List Event → List Event) (o : Outcome) : Outcome :=
  ⟨o.ending, o.state, g o.context, h o.events⟩

namespace Run

open Engine (Call Deed Ending)

variable {α β : Type} {g : Context → Context} {h : List Event → List Event}

/-- Where the machine is recast, `x'` ends as `x` ends, and leaves what `x` leaves recast. -/
def Shadows (g : Context → Context) (h : List Event → List Event) (x x' : Run α) : Prop :=
  ∀ m : Machine, x' (m.recast g h) = ((x m).1, (x m).2.recast g h)

namespace Shadows

variable {x x' : Run α}

theorem pure (a : α) : Shadows g h (Pure.pure a) (Pure.pure a) := fun _ => rfl

theorem stop (s : Stop) : Shadows g h (Run.stop s : Run α) (Run.stop s) := fun _ => rfl

theorem fail (f : Failure) : Shadows g h (Run.fail f : Run α) (Run.fail f) := fun _ => rfl

theorem bind {k k' : α → Run β} (first : Shadows g h x x') (second : ∀ a, Shadows g h (k a) (k' a)) :
    Shadows g h (x >>= k) (x' >>= k') := by
  intro m
  have before := first m
  rw [bind_apply, bind_apply, before]
  rcases x m with ⟨s | a, m₁⟩
  · rfl
  · exact second a m₁

theorem attempt (alike : Shadows g h x x') : Shadows g h (Run.attempt x) (Run.attempt x') := by
  intro m
  rw [attempt_apply, attempt_apply, alike m]

theorem settle (outcome : Except Stop α) :
    Shadows g h (Run.settle outcome) (Run.settle outcome) := by
  intro m
  rw [settle_apply, settle_apply]

theorem read {k k' : Machine → α} (same : ∀ m : Machine, k' (m.recast g h) = k m) :
    Shadows g h (Run.read k) (Run.read k') := by
  intro m
  rw [read_apply, read_apply, same]

theorem change {k k' : Machine → Machine}
    (same : ∀ m : Machine, k' (m.recast g h) = (k m).recast g h) :
    Shadows g h (Run.change k) (Run.change k') := by
  intro m
  rw [change_apply, change_apply, same]

theorem changeState (k : RunState → RunState) :
    Shadows g h (Run.changeState k) (Run.changeState k) :=
  change fun _ => rfl

theorem changeContext {k : Context → Context} (commutes : ∀ c, g (k c) = k (g c)) :
    Shadows g h (Run.changeContext k) (Run.changeContext k) := by
  refine change fun m => ?_
  have same := commutes m.context
  simp only [Machine.recast, same]

end Shadows

/-- What has to go along with the recasting of machines for whole runs to go along with it. -/
structure ShadowFrame (w w' : World) (g : Context → Context) (h : List Event → List Event) :
    Prop where
  twins : w.Twins w'
  begun : h [] = []
  calls : ∀ es, Event.calls (h es) = Event.calls es
  noted : ∀ es e, e.isDisposal = false → h (es ++ [e]) = h es ++ [e]
  tidied : ∀ c, c.disposes = true → Shadows g h (tidy w c) (tidy w' c)
  recordJob : ∀ c name status outputs,
    g (c.recordJob name status outputs) = (g c).recordJob name status outputs
  recordStep : ∀ c id outcome outputs,
    g (c.recordStep id outcome outputs) = (g c).recordStep id outcome outputs
  updateEnv : ∀ c env, g (c.updateEnv env) = (g c).updateEnv env

namespace ShadowFrame

variable {w w' : World} (frame : ShadowFrame w w' g h)

include frame

section Containers

theorem calls_recast (m : Machine) : (m.recast g h).calls = m.calls :=
  frame.calls m.events

theorem emit_recast {e : Event} (plain : e.isDisposal = false) (m : Machine) :
    (m.recast g h).emit e = (m.emit e).recast g h := by
  have same := frame.noted m.events e plain
  simp only [Machine.emit, Machine.recast, same]

theorem emit {e : Event} (plain : e.isDisposal = false) : Shadows g h (Run.emit e) (Run.emit e) :=
  .change (frame.emit_recast plain)

theorem emitAll {es : List Event} (plain : ∀ e ∈ es, e.isDisposal = false) :
    Shadows g h (Run.emitAll es) (Run.emitAll es) := by
  have appended : ∀ seen, h (seen ++ es) = h seen ++ es := by
    induction es with
    | nil => simp
    | cons e r ih =>
      intro seen
      have first := frame.noted seen e (plain e List.mem_cons_self)
      have rest := ih (fun x member => plain x (List.mem_cons_of_mem e member)) (seen ++ [e])
      simpa [first] using rest
  refine .change fun m => ?_
  have same := appended m.events
  simp only [Machine.recast, same]

theorem call {c : Call} (kept : c.disposes = false) :
    Shadows g h (Run.call w c) (Run.call w' c) := by
  intro m
  have answer : w'.engine.refuses (m.recast g h).calls c = w.engine.refuses m.calls c := by
    rw [frame.calls_recast, frame.twins.refuses _ _ kept]
  have noted := frame.emit_recast (e := .called c) kept m
  unfold Run.call
  rw [answer, noted]
  cases w.engine.refuses m.calls c <;> rfl

theorem create (spec : ContainerSpec) : Shadows g h (Run.create w spec) (Run.create w' spec) := by
  refine (frame.call rfl).bind fun _ => .read fun m => ?_
  rw [frame.calls_recast, frame.twins.identifier]

omit frame in
theorem perform (spec : ContainerSpec) (d : Deed) :
    Shadows g h (Run.perform spec d) (Run.perform spec d) := by
  intro m
  have state : (m.recast g h).state = m.state := rfl
  unfold Run.perform
  rw [state]
  cases m.state.channel with
  | none => rfl
  | some c =>
    cases spec.sees d.slot with
    | false => rfl
    | true =>
      dsimp only
      cases d.apply c <;> rfl

omit frame in
theorem performAll (spec : ContainerSpec) (deeds : List Deed) :
    Shadows g h (Run.performAll spec deeds) (Run.performAll spec deeds) := by
  induction deeds with
  | nil => exact .pure ()
  | cons d r ih => exact (perform spec d).bind fun _ => ih

omit frame in
theorem conclude (ending : Ending) : Shadows g h (Run.conclude ending) (Run.conclude ending) := by
  cases ending with
  | exits code logs => exact .pure _
  | fails fault message job step => exact .fail _
  | breaks fault => exact .stop _
  | interrupted message => exact .stop _

theorem wait (spec : ContainerSpec) (container : String) :
    Shadows g h (Run.wait w spec container) (Run.wait w' spec container) := by
  refine (frame.call rfl).bind fun _ => Shadows.bind (.read fun m => ?_) fun behaviour => ?_
  · rw [frame.calls_recast, frame.twins.behaviour]
  · exact (performAll spec behaviour.deeds).bind fun _ => conclude behaviour.ending

theorem follow (spec : ContainerSpec) (container : String) :
    Shadows g h (Run.follow w spec container) (Run.follow w' spec container) := by
  refine (frame.call rfl).bind fun _ => (frame.wait spec container).bind fun exit => ?_
  exact (frame.call rfl).bind fun _ => (frame.emit rfl).bind fun _ => .pure exit.code

theorem dispose (step container : String) :
    Shadows g h (Run.dispose w step container) (Run.dispose w' step container) := by
  refine (frame.tidied _ rfl).bind fun _ => (frame.tidied _ rfl).bind fun _ => ?_
  exact .changeState _

theorem container (step : String) (spec : ContainerSpec) :
    Shadows g h (Run.container w step spec) (Run.container w' step spec) := by
  have chosen := frame.emit (e := .imageChosen spec.image) rfl
  have pulled := frame.call (c := .pull spec.image) rfl
  refine chosen.bind fun _ => pulled.bind fun _ => (frame.create spec).bind fun name => ?_
  refine Shadows.bind (.changeState _) fun _ => ?_
  refine (frame.follow spec name).attempt.bind fun outcome => ?_
  exact (frame.dispose step name).bind fun _ => .settle outcome

theorem prepared (step : String) (spec : RunState → ContainerSpec) :
    Shadows g h (Run.prepared w step spec) (Run.prepared w' step spec) := by
  refine Shadows.bind (.changeState _) fun _ => Shadows.bind (.read fun _ => rfl) fun made => ?_
  exact frame.container step made

end Containers

section Work

theorem command (s : Step) : Shadows g h (Run.command w s) (Run.command w' s) := by
  have whole := frame.prepared s.id (commandSpec w.settings · s)
  have settings := frame.twins.settings
  unfold Run.command
  rw [settings]
  exact whole

theorem image (s : Step) (name : String) (inputs env : Bindings String) :
    Shadows g h (Run.image w s name inputs env) (Run.image w' s name inputs env) :=
  frame.prepared s.id (imageSpec · s name inputs env)

theorem node (s : Step) (name main : String) (files : Path) (inputs env : Bindings String) :
    Shadows g h (Run.node w s name main files inputs env)
      (Run.node w' s name main files inputs env) := by
  have source := frame.twins.currentDir
  have whole := frame.prepared s.id
    (nodeSpec · s name main (Path.absolute w.currentDir files).text inputs env)
  unfold Run.node
  rw [source]
  exact whole

theorem commands (steps : List Step) :
    Shadows g h (Run.commands w steps) (Run.commands w' steps) := by
  induction steps with
  | nil => exact .pure 0
  | cons s r ih =>
    refine (frame.command s).bind fun code => ?_
    by_cases failed : code ≠ 0
    · rw [if_pos failed, if_pos failed]
      exact .pure code
    · rw [if_neg failed, if_neg failed]
      exact ih

theorem composite (s : Step) (a : ActionMetadata) :
    Shadows g h (Run.composite w s a) (Run.composite w' s a) := by
  unfold Run.composite
  cases compositeRefusal? s.uses a.runs.steps with
  | some message => exact .fail _
  | none => exact frame.commands _

theorem described (s : Step) (a : ActionMetadata) (files : Path) :
    Shadows g h (Run.described w s a files) (Run.described w' s a files) := by
  unfold Run.described
  split
  · split
    · exact .fail _
    · split
      · exact .fail _
      · exact frame.image s _ _ _
  · split
    · exact frame.node s _ _ files _ _
    · split
      · exact frame.composite s a
      · exact .fail _

theorem metadata (uses : String) (files : Path) :
    Shadows g h (Run.metadata w uses files) (Run.metadata w' uses files) := by
  have same := frame.twins.metadata
  unfold Run.metadata
  rw [same]
  rcases w.metadata files.text with (message | fault | fault) | a
  · exact .fail _
  · exact .stop _
  · exact .stop _
  · exact .pure a

theorem clone (c : Clone) : Shadows g h (Run.clone w c) (Run.clone w' c) := by
  have same := frame.twins.clone
  refine (frame.emit rfl).bind fun _ => ?_
  rw [same]
  rcases w.clone c with (message | program) | _
  · exact .fail _
  · exact .stop _
  · exact .pure ()

theorem action (s : Step) : Shadows g h (Run.action w s) (Run.action w' s) := by
  have loaded : ∀ files, Shadows g h (Run.metadata w s.uses files >>= fun a => Run.described w s a files)
      (Run.metadata w' s.uses files >>= fun a => Run.described w' s a files) := by
    intro files
    exact (frame.metadata s.uses files).bind fun a => frame.described s a files
  have settings := frame.twins.settings
  unfold Run.action
  rw [settings]
  split
  · exact Shadows.bind (.read fun _ => rfl) fun _ => loaded _
  · split
    · exact .fail _
    · exact frame.image s _ _ _
  · exact (frame.clone _).bind fun _ => loaded _
  · exact .fail _

theorem work (s : Step) (kind : StepKind) :
    Shadows g h (Run.work w s kind) (Run.work w' s kind) := by
  cases kind with
  | run => exact frame.command s
  | action => exact frame.action s

end Work

section Steps

theorem recorded (s : Step) (outcome : String) {x : Run α} (next : Shadows g h x x) :
    Shadows g h
      (if s.id ≠ "" then (Run.changeContext fun c => c.recordStep s.id outcome ∅) >>= fun _ => x else x)
      (if s.id ≠ "" then (Run.changeContext fun c => c.recordStep s.id outcome ∅) >>= fun _ => x
        else x) := by
  have written : Shadows g h (Run.changeContext fun c => c.recordStep s.id outcome ∅)
      (Run.changeContext fun c => c.recordStep s.id outcome ∅) :=
    .changeContext fun c => frame.recordStep c s.id outcome ∅
  split
  · exact written.bind fun _ => next
  · exact next

theorem failStep (s : Step) (f : Failure) :
    Shadows g h (Run.failStep s f : Run α) (Run.failStep s f) := by
  have deplored : Shadows g h (Run.recordFailure s f) (Run.recordFailure s f) := by
    refine Shadows.bind (.changeState _) fun _ => ?_
    exact frame.recorded s outcomeFailure (frame.emit rfl)
  exact deplored.bind fun _ => .fail _

omit frame in
theorem collect : Shadows g h Run.collect Run.collect := by
  intro m
  have state : (m.recast g h).state = m.state := rfl
  unfold Run.collect
  rw [state]
  cases m.state.channel <;> rfl

theorem merge (s : Step) (values : Channel.Collected) :
    Shadows g h (Run.merge s values) (Run.merge s values) := by
  have assigned : ∀ e ∈ values.env.entries.map (fun e => Event.envSet e.1 e.2),
      e.isDisposal = false := by
    intro e member
    obtain ⟨_, _, rfl⟩ := List.mem_map.mp member
    rfl
  have outputs : ∀ e ∈ values.outputs.entries.map (fun e => Event.outputSet s.id e.1 e.2),
      e.isDisposal = false := by
    intro e member
    obtain ⟨_, _, rfl⟩ := List.mem_map.mp member
    rfl
  have updated : Shadows g h (Run.changeContext fun c => c.updateEnv values.env)
      (Run.changeContext fun c => c.updateEnv values.env) :=
    .changeContext fun c => frame.updateEnv c values.env
  refine Shadows.bind (.changeState _) fun _ => updated.bind fun _ => ?_
  refine (frame.emitAll assigned).bind fun _ => ?_
  split
  · exact Shadows.bind (.changeState _) fun _ => frame.emitAll outputs
  · exact .pure ()

theorem recordSuccess (s : Step) (values : Channel.Collected) :
    Shadows g h (Run.recordSuccess s values) (Run.recordSuccess s values) := by
  refine Shadows.bind (.changeState _) fun _ => ?_
  split
  · refine .change fun m => ?_
    have same := frame.recordStep m.context s.id statusSuccess ((m.state.outputs.get? s.id).getD ∅)
    simp only [Machine.recast, same]
  · exact .pure ()

theorem finish (s : Step) (outcome : Except Stop Int) :
    Shadows g h (Run.finish s outcome) (Run.finish s outcome) := by
  rcases outcome with (f | fault | message | fault | fault) | code
  · exact frame.failStep s f
  · exact frame.failStep s _
  · exact .stop _
  · exact .stop _
  · exact .stop _
  simp only [Run.finish]
  by_cases failed : code ≠ 0
  · rw [if_pos failed]
    exact frame.failStep s _
  · rw [if_neg failed]
    refine collect.bind fun collected => ?_
    cases collected with
    | error fault => exact frame.failStep s _
    | ok values => exact (frame.merge s values).bind fun _ => frame.recordSuccess s values

theorem step (s : Step) : Shadows g h (Run.step w s) (Run.step w' s) := by
  refine Shadows.bind (.changeState _) fun _ => ?_
  cases s.work? with
  | none => exact .fail _
  | some kind => exact (frame.work s kind).attempt.bind fun outcome => frame.finish s outcome

theorem turn (s : Step) (admitted : Bool) :
    Shadows g h (Run.turn w s admitted) (Run.turn w' s admitted) := by
  cases admitted with
  | true => exact (frame.step s).bind fun _ => frame.emit rfl
  | false => exact frame.recorded s statusSkipped (frame.emit rfl)

omit frame in
theorem admitted {s : Step} (judged : ∀ c, judge? (g c) s.condition = judge? c s.condition) :
    Shadows g h (Run.admitted s) (Run.admitted s) := by
  intro m
  have same : judge? (m.recast g h).context s.condition = judge? m.context s.condition :=
    judged m.context
  unfold Run.admitted
  rw [same]
  cases judge? m.context s.condition <;> rfl

theorem reach (index total : Nat) {s : Step}
    (judged : ∀ c, judge? (g c) s.condition = judge? c s.condition) :
    Shadows g h (Run.reach w index total s) (Run.reach w' index total s) :=
  (frame.emit rfl).bind fun _ => (admitted judged).bind fun verdict => frame.turn s verdict

theorem steps (total index : Nat) {ss : List Step}
    (judged : ∀ s ∈ ss, ∀ c, judge? (g c) s.condition = judge? c s.condition) :
    Shadows g h (Run.steps w total index ss) (Run.steps w' total index ss) := by
  induction ss generalizing index with
  | nil => exact .pure ()
  | cons s r ih =>
    have first := frame.reach index total (judged s List.mem_cons_self)
    have rest := ih (index + 1) fun x member => judged x (List.mem_cons_of_mem s member)
    exact first.bind fun _ => rest

end Steps

section Jobs

variable {declared : Bindings Job}

theorem closeJob (name : String) (j : Job) (outcome : Except Stop Unit) :
    Shadows g h (Run.closeJob name j outcome) (Run.closeJob name j outcome) := by
  rcases outcome with (f | fault | message | fault | fault) | _
  · have recorded : Shadows g h (Run.changeContext fun c => c.recordJob name (endOf f).text ∅)
        (Run.changeContext fun c => c.recordJob name (endOf f).text ∅) :=
      .changeContext fun c => frame.recordJob c name (endOf f).text ∅
    refine Shadows.bind (.changeState _) fun _ => recorded.bind fun _ => ?_
    exact (frame.emit rfl).bind fun _ => .fail _
  · exact .stop _
  · exact .stop _
  · exact .stop _
  · exact .stop _
  · refine Shadows.bind (.read fun _ => rfl) fun outputs => Shadows.bind (.changeState _) fun _ => ?_
    have recorded : Shadows g h (Run.changeContext fun c => c.recordJob name statusSuccess outputs)
        (Run.changeContext fun c => c.recordJob name statusSuccess outputs) :=
      .changeContext fun c => frame.recordJob c name statusSuccess outputs
    exact recorded.bind fun _ => (frame.emit rfl).bind fun _ => .pure _

theorem job (name : String)
    (judged : ∀ j, declared.get? name = some j → ∀ s ∈ j.steps, ∀ c,
      judge? (g c) s.condition = judge? c s.condition) :
    Shadows g h (Run.job w declared name) (Run.job w' declared name) := by
  unfold Run.job
  cases found : declared.get? name with
  | none => exact .fail _
  | some j =>
    have opened : Shadows g h (Run.openJob name j) (Run.openJob name j) :=
      Shadows.bind (.changeState _) fun _ => frame.emit rfl
    have ran := frame.steps j.steps.length 1 (judged j found)
    exact opened.bind fun _ => ran.attempt.bind fun outcome => frame.closeJob name j outcome

theorem jobs
    (judged : ∀ name j, declared.get? name = some j → ∀ s ∈ j.steps, ∀ c,
      judge? (g c) s.condition = judge? c s.condition) (plans : List JobPlan) :
    Shadows g h (Run.jobs w declared plans) (Run.jobs w' declared plans) := by
  induction plans with
  | nil => exact .pure []
  | cons p r ih =>
    unfold Run.jobs
    split
    · have first := frame.job p.name (judged p.name)
      exact first.bind fun done => ih.bind fun rest => .pure (done :: rest)
    · have passed : Shadows g h (Run.skipJob p.name) (Run.skipJob p.name) :=
        .changeContext fun c => frame.recordJob c p.name statusSkipped ∅
      exact passed.bind fun _ => ih

/-- If the conditions of steps have the same verdicts in the other data, then the second run ends as
the first does, with the same state, and with the data and the events that are made of those of the
first. -/
theorem execute {workflow : Workflow}
    (judged : ∀ name j, workflow.jobs.get? name = some j → ∀ s ∈ j.steps, ∀ c,
      judge? (g c) s.condition = judge? c s.condition)
    (workingDir : String) (scratch : Except FileFault String) {p p' : Plan}
    (same : p'.jobs = p.jobs) (c : Context) :
    workflow.execute w' workingDir scratch p' (g c) =
      (workflow.execute w workingDir scratch p c).recast g h := by
  have begun := frame.begun
  cases scratch with
  | error fault => simp only [Workflow.execute, Outcome.recast, begun]
  | ok directory =>
    have closed : Shadows g h Run.close Run.close :=
      Shadows.bind (.changeState _) fun _ => frame.emit rfl
    have whole : Shadows g h (Run.plan w workflow.jobs p.jobs) (Run.plan w' workflow.jobs p.jobs) :=
      (frame.jobs judged p.jobs).attempt.bind fun outcome => closed.bind fun _ => .settle outcome
    have start : Machine.initial workingDir directory (g c) =
        (Machine.initial workingDir directory c).recast g h := by
      simp only [Machine.initial, Machine.recast, begun]
    have ran := whole (.initial workingDir directory c)
    simp only [Workflow.execute, same, start, ran]
    rfl

end Jobs

end ShadowFrame

end Run

end Drydock
