import Drydock.Proofs.Run.Container
import Drydock.Proofs.Run.Work

set_option autoImplicit false
set_option relaxedAutoImplicit false

/-!
What stops the work on a container. Main statement: it is a call that is refused, what waiting for the
container ends in, or a fault of a file of the channel, and nothing else.
-/

namespace Drydock

open Engine (Call Deed Ending)

/-- Waiting for a container can end in this failure. -/
def Engine.Reports (e : Engine) (f : Failure) : Prop :=
  ∃ calls name, (e.behaviour calls name).ending = .fails f.kind f.message f.job f.step

/-- What an engine and the files of the channel can stop the work on a container by. -/
inductive Engine.Causes (e : Engine) : Stop → Prop
  | refused (calls : List Call) (c : Call) (message : String)
      (refused : e.refuses calls c = some message) :
      Causes e (.failure (.of .containerRuntime message))
  | reported (f : Failure) (reports : e.Reports f) : Causes e (.failure f)
  | interrupted (calls : List Call) (name message : String)
      (ending : (e.behaviour calls name).ending = .interrupted message) :
      Causes e (.interrupted message)
  | broken (calls : List Call) (name : String) (fault : FileFault)
      (ending : (e.behaviour calls name).ending = .breaks fault) : Causes e (.file fault)
  | undone (calls : List Call) (name : String) (d : Deed) (c : Channel) (fault : FileFault)
      (member : d ∈ (e.behaviour calls name).deeds) (undone : d.apply c = .error fault) :
      Causes e (.file fault)

namespace Run

variable {α β : Type} {w : World} {P Q : Stop → Prop} {x : Run α}

/-- Whatever stops a part of a run is of one sort. -/
def StopsBy (P : Stop → Prop) (x : Run α) : Prop :=
  ∀ m reason m', x m = (.error reason, m') → P reason

namespace StopsBy

theorem mono (stops : StopsBy P x) (weaker : ∀ reason, P reason → Q reason) : StopsBy Q x :=
  fun m reason m' ended => weaker reason (stops m reason m' ended)

theorem of_ok (always : ∀ m, ∃ a m', x m = (.ok a, m')) : StopsBy P x := by
  intro m reason m' ended
  obtain ⟨a, m₁, ran⟩ := always m
  cases ran.symm.trans ended

theorem stop {reason : Stop} (cause : P reason) : StopsBy P (Run.stop reason : Run α) := by
  intro m reason m' ended
  cases ended
  exact cause

theorem bind {f : α → Run β} (first : StopsBy P x) (second : ∀ a, StopsBy P (f a)) :
    StopsBy P (x >>= f) := by
  intro m reason m' ended
  rcases bind_eq_error.mp ended with stopped | ⟨a, m₁, -, later⟩
  · exact first m reason m' stopped
  · exact second a m₁ reason m' later

theorem read {g : Machine → α} {f : α → Run β} (next : ∀ m, StopsBy P (f (g m))) :
    StopsBy P (Run.read g >>= f) :=
  fun m => next m m

theorem call (c : Call) : StopsBy w.engine.Causes (Run.call w c) := by
  intro m reason m' ended
  cases refused : w.engine.refuses m.calls c with
  | some message =>
    cases (call_of_refused refused).symm.trans ended
    exact .refused m.calls c message refused
  | none => cases (call_of_accepted refused).symm.trans ended

theorem performAll {calls : List Call} {name : String} (spec : ContainerSpec) :
    StopsBy w.engine.Causes (Run.performAll spec (w.engine.behaviour calls name).deeds) := by
  intro m reason m' ended
  obtain ⟨d, member, c, fault, undone, rfl⟩ := performAll_eq_error ended
  exact .undone calls name d c fault member undone

theorem conclude {calls : List Call} {name : String} :
    StopsBy w.engine.Causes (Run.conclude (w.engine.behaviour calls name).ending) := by
  cases waited : (w.engine.behaviour calls name).ending with
  | exits code logs => exact .of_ok fun m => ⟨⟨code, logs⟩, m, rfl⟩
  | fails kind message job step =>
    exact .stop (.reported ⟨kind, message, job, step⟩ ⟨calls, name, waited⟩)
  | breaks fault => exact .stop (.broken calls name fault waited)
  | interrupted message => exact .stop (.interrupted calls name message waited)

theorem follow (spec : ContainerSpec) (name : String) :
    StopsBy w.engine.Causes (Run.follow w spec name) := by
  have waiting : StopsBy w.engine.Causes (wait w spec name) :=
    (call _).bind fun _ => .read fun _ => (performAll spec).bind fun _ => conclude
  refine (call _).bind fun _ => waiting.bind fun exit => (call _).bind fun _ => ?_
  exact .of_ok fun m => ⟨exit.code, _, rfl⟩

/-- However a container is disposed of, what stops its step is what stopped it. -/
theorem track (step : String) (spec : ContainerSpec) (name : String) :
    StopsBy w.engine.Causes (Run.track w step spec name) := by
  intro m reason m' ended
  rw [track_apply] at ended
  exact follow spec name _ reason _ (Prod.ext (Prod.mk.inj ended).1 rfl)

theorem container (step : String) (spec : ContainerSpec) :
    StopsBy w.engine.Causes (Run.container w step spec) := by
  have chosen : StopsBy w.engine.Causes (emit (.imageChosen spec.image)) :=
    .of_ok fun m => ⟨(), _, rfl⟩
  have created : StopsBy w.engine.Causes (create w spec) :=
    (call _).bind fun _ => .of_ok fun m => ⟨_, m, rfl⟩
  exact chosen.bind fun _ => (call _).bind fun _ => created.bind fun name => track step spec name

theorem prepared (step : String) (spec : RunState → ContainerSpec) :
    StopsBy w.engine.Causes (Run.prepared w step spec) := by
  have files : StopsBy w.engine.Causes (changeState RunState.ensureFiles) :=
    .of_ok fun m => ⟨(), _, rfl⟩
  exact files.bind fun _ => .read fun m => container step (spec m.state)

theorem image (s : Step) (name : String) (inputs env : Bindings String) :
    StopsBy w.engine.Causes (Run.image w s name inputs env) :=
  prepared s.id (imageSpec · s name inputs env)

theorem node (s : Step) (name main : String) (files : Path) (inputs env : Bindings String) :
    StopsBy w.engine.Causes (Run.node w s name main files inputs env) :=
  prepared s.id (nodeSpec · s name main (Path.absolute w.currentDir files).text inputs env)

theorem command (s : Step) : StopsBy w.engine.Causes (Run.command w s) :=
  prepared s.id (commandSpec w.settings · s)

theorem commands (steps : List Step) : StopsBy w.engine.Causes (Run.commands w steps) := by
  induction steps with
  | nil => exact .of_ok fun m => ⟨0, m, rfl⟩
  | cons s r ih =>
    refine (command s).bind fun code => ?_
    split
    · exact .of_ok fun m => ⟨code, m, rfl⟩
    · exact ih

end StopsBy

end Run

end Drydock
