import Drydock.Proofs.Run.Frame

set_option autoImplicit false
set_option relaxedAutoImplicit false

/-!
The work of a step: containers, commands and actions. Main statements: what the parts of work have, all
work has; and whatever comes of it, work changes no more than the files of the channel and the
containers that are live.
-/

namespace Drydock.Run

open Engine (Call Deed Ending)
open Machine (Works Turns)

variable (w : World)

/-- A container for a step, made as the state says when the files are there. -/
def prepared (step : String) (spec : RunState → ContainerSpec) : Run Int := do
  changeState RunState.ensureFiles
  let made ← read fun m => spec m.state
  container w step made

/-- What has to hold of the parts of what gives an exit code to hold of all that is made of them. -/
structure ExitRules (w : World) (R : Run Int → Prop) : Prop where
  exits : ∀ code, R (pure code)
  fails : ∀ f, R (fail f)
  prepared : ∀ step spec, (∀ s : RunState, s.mounts ⊆ (spec s).mounts) → R (prepared w step spec)
  andThen : ∀ {x y : Run Int}, R x → R y → R (x >>= fun code => if code ≠ 0 then pure code else y)

/-- What has to hold of the parts of the work of a step to hold of the work: `Q` is about what is done
before a container, `R` about what gives an exit code. -/
structure WorkRules (Q : (α : Type) → Run α → Prop) (R : Run Int → Prop) : Prop
    extends ExitRules w R where
  stays : ∀ {α : Type} {x : Run α}, (∀ m, (x m).2 = m) → Q α x
  cloned : ∀ c, Q Unit (clone w c)
  bind : ∀ {α : Type} {x : Run α} {f : α → Run Int}, Q α x → (∀ a, R (f a)) → R (x >>= f)

theorem metadata_stays (uses : String) (files : Path) (m : Machine) :
    (metadata w uses files m).2 = m := by
  unfold metadata
  rcases w.metadata files.text with (message | fault | fault) | a <;> rfl

namespace ExitRules

variable {w} {R : Run Int → Prop}

theorem command (rules : ExitRules w R) (s : Step) : R (command w s) :=
  rules.prepared s.id (commandSpec w.settings · s) fun _ => List.Subset.refl _

theorem image (rules : ExitRules w R) (s : Step) (name : String) (inputs env : Bindings String) :
    R (image w s name inputs env) :=
  rules.prepared s.id (imageSpec · s name inputs env) fun _ => List.Subset.refl _

theorem node (rules : ExitRules w R) (s : Step) (name main : String) (files : Path)
    (inputs env : Bindings String) : R (node w s name main files inputs env) :=
  rules.prepared s.id (nodeSpec · s name main (Path.absolute w.currentDir files).text inputs env)
    fun _ => List.subset_append_left _ _

theorem commands (rules : ExitRules w R) (steps : List Step) : R (commands w steps) := by
  induction steps with
  | nil => exact rules.exits 0
  | cons s r ih => exact rules.andThen (rules.command s) ih

theorem composite (rules : ExitRules w R) (s : Step) (a : ActionMetadata) : R (composite w s a) := by
  unfold Run.composite
  split
  · exact rules.fails _
  · exact rules.commands _

theorem described (rules : ExitRules w R) (s : Step) (a : ActionMetadata) (files : Path) :
    R (described w s a files) := by
  unfold Run.described
  split
  · split
    · exact rules.fails _
    · split
      · exact rules.fails _
      · exact rules.image s _ _ _
  · split
    · exact rules.node s _ _ files _ _
    · split
      · exact rules.composite s a
      · exact rules.fails _

end ExitRules

namespace WorkRules

variable {w} {Q : (α : Type) → Run α → Prop} {R : Run Int → Prop}

theorem action (rules : WorkRules w Q R) (s : Step) : R (action w s) := by
  have loaded : ∀ files, R (metadata w s.uses files >>= fun a => Run.described w s a files) :=
    fun files => rules.bind (rules.stays (metadata_stays w s.uses files)) fun a =>
      rules.described s a files
  unfold Run.action
  split
  · exact rules.bind (rules.stays fun _ => rfl) fun _ => loaded _
  · split
    · exact rules.fails _
    · exact rules.image s _ _ _
  · exact rules.bind (rules.cloned _) fun _ => loaded _
  · exact rules.fails _

/-- What follows the rules holds of the work of every step. -/
theorem work (rules : WorkRules w Q R) (s : Step) (kind : StepKind) : R (work w s kind) := by
  cases kind with
  | run => exact rules.command s
  | action => exact rules.action s

end WorkRules

/-- What a relation between machines has to allow for all work of steps to keep it: the events of work,
and what it does to the files and to the containers that are live. -/
structure WorkFrame (R : Machine → Machine → Prop) : Prop where
  noted : ∀ {e : Event}, e.scope = 0 → ∀ m : Machine, R m (m.emit e)
  ensured : ∀ m : Machine, R m { m with state := m.state.ensureFiles }
  done : ∀ {m : Machine} {d : Deed} {c c' : Channel}, m.state.channel = some c → d.apply c = .ok c' →
    R m { m with state := { m.state with channel := some c' } }
  live : ∀ (m : Machine) (live : Bindings String),
    R m { m with state := { m.state with live := live } }

namespace WorkFrame

variable {w} {R : Machine → Machine → Prop}

theorem event (frame : WorkFrame R) {e : Event} (small : e.scope = 0) : Keeps R (emit e) :=
  .change (frame.noted small)

theorem call (frame : WorkFrame R) (c : Call) : Keeps R (Run.call w c) := by
  intro m
  unfold Run.call
  split <;> exact frame.noted rfl m

variable [IsPreorder Machine R]

theorem tidy (frame : WorkFrame R) (c : Call) : Keeps R (Run.tidy w c) := by
  intro m
  have noted : R m (m.emit (.called c)) := frame.noted rfl m
  unfold Run.tidy
  split
  · exact trans_of R noted (frame.noted rfl _)
  · exact noted

theorem create (frame : WorkFrame R) (spec : ContainerSpec) : Keeps R (Run.create w spec) :=
  (frame.call _).bind fun _ => .read _

theorem perform (frame : WorkFrame R) (spec : ContainerSpec) (d : Deed) :
    Keeps R (Run.perform spec d) := by
  intro m
  unfold Run.perform
  split
  · rename_i c opened
    split
    · split
      · rename_i c' applied
        exact frame.done opened applied
      · exact refl_of R m
    · exact refl_of R m
  · exact refl_of R m

theorem performAll (frame : WorkFrame R) (spec : ContainerSpec) (deeds : List Deed) :
    Keeps R (Run.performAll spec deeds) := by
  induction deeds with
  | nil => exact .pure ()
  | cons d r ih => exact (frame.perform spec d).bind fun _ => ih

theorem conclude (ending : Ending) : Keeps R (Run.conclude ending) := by
  cases ending with
  | exits code logs => exact .pure _
  | fails fault message job step => exact .fail _
  | breaks fault => exact .stop _
  | interrupted message => exact .stop _

theorem wait (frame : WorkFrame R) (spec : ContainerSpec) (container : String) :
    Keeps R (Run.wait w spec container) := by
  refine (frame.call _).bind fun _ => (Keeps.read _).bind fun behaviour => ?_
  exact (frame.performAll spec _).bind fun _ => conclude _

theorem follow (frame : WorkFrame R) (spec : ContainerSpec) (container : String) :
    Keeps R (Run.follow w spec container) := by
  refine (frame.call _).bind fun _ => (frame.wait spec container).bind fun exit => ?_
  exact (frame.call _).bind fun _ => (frame.event rfl).bind fun _ => .pure _

theorem dispose (frame : WorkFrame R) (step container : String) :
    Keeps R (Run.dispose w step container) := by
  refine (frame.tidy _).bind fun _ => (frame.tidy _).bind fun _ => ?_
  exact .change fun m => frame.live m (m.state.live.erase step)

theorem container (frame : WorkFrame R) (step : String) (spec : ContainerSpec) :
    Keeps R (Run.container w step spec) := by
  refine (frame.event rfl).bind fun _ => (frame.call _).bind fun _ => ?_
  refine (frame.create spec).bind fun name => ?_
  refine Keeps.bind (.change fun m => frame.live m (m.state.live.insert step name)) fun _ => ?_
  refine (frame.follow spec name).attempt.bind fun outcome => ?_
  exact (frame.dispose step name).bind fun _ => .settle outcome

theorem clone (frame : WorkFrame R) (c : Clone) : Keeps R (Run.clone w c) := by
  refine (frame.event rfl).bind fun _ => ?_
  split
  · exact .pure ()
  · exact .fail _
  · exact .stop _

theorem rules (frame : WorkFrame R) : WorkRules w (fun _ => Keeps R) (Keeps R) where
  exits code := .pure code
  fails f := .fail f
  stays := .of_stays
  cloned := frame.clone
  bind := .bind
  prepared step spec _ :=
    Keeps.bind (.change frame.ensured) fun _ => (Keeps.read _).bind fun made =>
      frame.container step made
  andThen first second := by
    refine first.bind fun code => ?_
    split
    · exact .pure code
    · exact second

/-- Whatever comes of it, the work of a step keeps what its frame allows. -/
theorem work (frame : WorkFrame R) (s : Step) (kind : StepKind) : Keeps R (Run.work w s kind) :=
  frame.rules.work s kind

end WorkFrame

theorem workFrame_works : WorkFrame Works where
  noted small m := Machine.works_emit small m
  ensured m := ⟨rfl, rfl, .refl 0 m⟩
  done _ _ := ⟨rfl, rfl, .refl 0 _⟩
  live m _ := ⟨rfl, rfl, .refl 0 m⟩

/-- The work of a step changes no more than the files of the channel and the containers that are
live, and notes nothing of jobs or steps. -/
theorem keeps_work (step : Step) (kind : StepKind) : Keeps Works (work w step kind) :=
  workFrame_works.work step kind

end Drydock.Run
