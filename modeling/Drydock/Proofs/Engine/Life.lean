import Drydock.Engine.Basic
import Drydock.Proofs.Traversal
import Mathlib.Logic.Relation

set_option autoImplicit false
set_option relaxedAutoImplicit false

/-!
The lives of containers in the calls on an engine. Main statements: calls that are lives of containers
one after another stop and remove exactly what they create, each container before the next is created;
and where only the last life may go wrong, a container is created only after others that went well.
-/

namespace Drydock.Engine

open Relation (ReflTransGen ReflGen)

/-- Each call is accepted, after those before it. -/
def Accepts (e : Engine) : List Call → List Call → Prop
  | _, [] => True
  | before, c :: r => e.refuses before c = none ∧ e.Accepts (before ++ [c]) r

/-- The name of a container that is created, right after its image is pulled. -/
def named (e : Engine) (before : List Call) (spec : ContainerSpec) : String :=
  e.identifier (before ++ [.pull spec.image, .create spec])

/-- What is done with a container that is started: nothing, or it is waited for and then, at best, asked
for its output. -/
def uses (name : String) : List (List Call) :=
  [[], [.wait name], [.wait name, .logs name]]

/-- The calls for a container that is created: it is started, used, stopped and removed. -/
def disposal (name : String) (used : List Call) : List Call :=
  .start name :: used ++ [.stop name, .remove name]

/-- The calls for a container from the pull of its image to its removal. -/
def lifeCalls (spec : ContainerSpec) (name : String) (used : List Call) : List Call :=
  .pull spec.image :: .create spec :: disposal name used

/-- The calls for one container, made after others. Once it is created it is stopped and removed,
however far it got; whether it can be stopped does not matter. -/
inductive Life (e : Engine) (before : List Call) : List Call → Prop
  | notPulled (image : String) (refused : e.refuses before (.pull image) ≠ none) :
      Life e before [.pull image]
  | notCreated (spec : ContainerSpec) (pulled : e.Accepts before [.pull spec.image])
      (refused : e.refuses (before ++ [.pull spec.image]) (.create spec) ≠ none) :
      Life e before [.pull spec.image, .create spec]
  | ended (spec : ContainerSpec) (used : List Call)
      (created : e.Accepts before [.pull spec.image, .create spec])
      (use : used ∈ uses (e.named before spec)) :
      Life e before (lifeCalls spec (e.named before spec) used)

/-- The life of a container that goes well: nothing is refused before it is stopped, and it exits with
zero. -/
inductive Fulfilled (e : Engine) (before : List Call) : List Call → Prop
  | mk (spec : ContainerSpec) (name : String) (named : name = e.named before spec) (logs : String)
      (accepted : e.Accepts before
        [.pull spec.image, .create spec, .start name, .wait name, .logs name])
      (exited : (e.behaviour
        (before ++ [.pull spec.image, .create spec, .start name, .wait name]) name).ending =
          .exits 0 logs) :
      Fulfilled e before (lifeCalls spec name [.wait name, .logs name])

/-- One more life of a container. -/
def Lives (e : Engine) (before after : List Call) : Prop :=
  ∃ block, Life e before block ∧ after = before ++ block

/-- One more life of a container, which goes well. -/
def Serves (e : Engine) (before after : List Call) : Prop :=
  ∃ block, Fulfilled e before block ∧ after = before ++ block

/-- The names of the containers that calls create, in order. -/
def created (e : Engine) : List Call → List Call → List String
  | _, [] => []
  | before, .create spec :: r =>
    (if e.refuses before (.create spec) = none then [e.identifier (before ++ [.create spec])] else []) ++
      e.created (before ++ [.create spec]) r
  | before, c :: r => e.created (before ++ [c]) r

/-- The container that a call stops. -/
def Call.stopped? : Call → Option String
  | .stop name => some name
  | _ => none

/-- The container that a call removes. -/
def Call.removed? : Call → Option String
  | .remove name => some name
  | _ => none

variable {e : Engine} {before calls block : List Call}

theorem accepts_append {first rest : List Call} :
    e.Accepts before (first ++ rest) ↔ e.Accepts before first ∧ e.Accepts (before ++ first) rest := by
  induction first generalizing before with
  | nil => simp [Accepts]
  | cons c r ih =>
    rw [List.cons_append, Accepts, Accepts, ih, List.append_assoc, and_assoc]
    rfl

theorem Fulfilled.life (fulfilled : Fulfilled e before block) : Life e before block := by
  obtain ⟨spec, name, rfl, logs, ⟨pulled, created, -⟩, -⟩ := fulfilled
  exact .ended spec _ ⟨pulled, created, trivial⟩ (by simp [uses])

theorem Serves.lives {after : List Call} (serves : e.Serves before after) : e.Lives before after := by
  obtain ⟨block, fulfilled, rfl⟩ := serves
  exact ⟨block, fulfilled.life, rfl⟩

theorem created_append (before first rest : List Call) :
    e.created before (first ++ rest) = e.created before first ++ e.created (before ++ first) rest := by
  induction first generalizing before with
  | nil => simp [created]
  | cons c r ih =>
    have next := ih (before ++ [c])
    rw [List.append_assoc, List.singleton_append] at next
    cases c <;> simp [created, next]

section Disposal

theorem created_disposal {name : String} {used : List Call} (use : used ∈ uses name) :
    e.created before (disposal name used) = [] := by
  simp only [uses, List.mem_cons, List.not_mem_nil, or_false] at use
  rcases use with rfl | rfl | rfl <;> simp [disposal, created]

theorem Life.balance (life : Life e before block) :
    e.created before block = block.filterMap Call.stopped? ∧
      e.created before block = block.filterMap Call.removed? := by
  cases life with
  | notPulled image refused => exact ⟨rfl, rfl⟩
  | notCreated spec pulled refused =>
    simp [created, refused, Call.stopped?, Call.removed?]
  | ended spec used created use =>
    obtain ⟨-, created, -⟩ := created
    have names : e.created before (lifeCalls spec (e.named before spec) used) =
        [e.named before spec] := by
      have none : e.created (before ++ [.pull spec.image, .create spec])
          (disposal (e.named before spec) used) = [] := created_disposal use
      simpa [Engine.created, lifeCalls, created, named] using none
    rw [names]
    simp only [uses, List.mem_cons, List.not_mem_nil, or_false] at use
    rcases use with rfl | rfl | rfl <;> exact ⟨rfl, rfl⟩

theorem create_notMem_disposal {name : String} {used : List Call} (use : used ∈ uses name)
    (spec : ContainerSpec) : .create spec ∉ disposal name used := by
  simp only [uses, List.mem_cons, List.not_mem_nil, or_false] at use
  rcases use with rfl | rfl | rfl <;> simp [disposal]

/-- Among the calls for one container, the creation comes right after the pull of the image, and if it
is accepted, all that follows is the disposal of the container. -/
theorem Life.of_create (life : Life e before block) {spec : ContainerSpec} {first after : List Call}
    (split : block = first ++ .create spec :: after) :
    first = [.pull spec.image] ∧ (e.refuses (before ++ first) (.create spec) = none →
      ∃ used ∈ uses (e.named before spec), after = disposal (e.named before spec) used) := by
  cases life with
  | notPulled image refused =>
    rcases first with _ | ⟨x, _ | ⟨y, first⟩⟩ <;> simp at split
  | notCreated spec' pulled refused =>
    rcases first with _ | ⟨x, _ | ⟨y, first⟩⟩
    · simp at split
    · obtain ⟨rfl, rfl, rfl⟩ : Call.pull spec'.image = x ∧ spec' = spec ∧ [] = after := by
        simpa using split
      exact ⟨rfl, fun accepted => absurd accepted refused⟩
    · simp at split
  | ended spec' used created use =>
    rcases first with _ | ⟨x, _ | ⟨y, first⟩⟩
    · simp [lifeCalls] at split
    · obtain ⟨rfl, rfl, rfl⟩ : Call.pull spec'.image = x ∧ spec' = spec ∧
          disposal (e.named before spec') used = after := by
        simpa [lifeCalls] using split
      exact ⟨rfl, fun _ => ⟨used, use, rfl⟩⟩
    · have rest : disposal (e.named before spec') used = first ++ .create spec :: after :=
        (List.cons.inj (List.cons.inj split).2).2
      have late : .create spec ∈ disposal (e.named before spec') used :=
        rest ▸ List.mem_append_right _ List.mem_cons_self
      exact absurd late (create_notMem_disposal use spec)

theorem balance_of_lives (lives : ReflTransGen e.Lives [] calls) :
    e.created [] calls = calls.filterMap Call.stopped? ∧
      e.created [] calls = calls.filterMap Call.removed? := by
  induction lives with
  | refl => exact ⟨rfl, rfl⟩
  | tail _ next ih =>
    obtain ⟨block, life, rfl⟩ := next
    obtain ⟨stops, removes⟩ := life.balance
    rw [created_append, List.filterMap_append, List.filterMap_append, List.nil_append]
    exact ⟨by rw [ih.1, stops], by rw [ih.2, removes]⟩

/-- After a container is created comes its disposal, before anything else is done. -/
theorem disposal_of_lives (lives : ReflTransGen e.Lives [] calls) {spec : ContainerSpec}
    {first after : List Call} (split : calls = first ++ .create spec :: after)
    (accepted : e.refuses first (.create spec) = none) :
    ∃ used rest, used ∈ uses (e.identifier (first ++ [.create spec])) ∧
      after = disposal (e.identifier (first ++ [.create spec])) used ++ rest := by
  induction lives generalizing after with
  | refl => simp at split
  | @tail earlier _ _ next ih =>
    obtain ⟨block, life, rfl⟩ := next
    rcases append_eq_append_cons split with ⟨more, inner, rfl⟩ | ⟨more, rfl, inner⟩
    · obtain ⟨used, rest, use, rfl⟩ := ih inner
      exact ⟨used, rest ++ block, use, List.append_assoc _ _ _⟩
    · obtain ⟨rfl, followed⟩ := life.of_create inner
      obtain ⟨used, use, rfl⟩ := followed accepted
      rw [List.append_assoc, List.singleton_append]
      exact ⟨used, [], use, (List.append_nil _).symm⟩

private theorem serves_of_create_served {served : List Call} (serves : ReflTransGen e.Serves [] served)
    {spec : ContainerSpec} {first after : List Call}
    (split : served = first ++ .create spec :: after) :
    ∃ earlier, ReflTransGen e.Serves [] earlier ∧ first = earlier ++ [.pull spec.image] := by
  induction serves generalizing after with
  | refl => simp at split
  | @tail earlier _ sofar next ih =>
    obtain ⟨block, fulfilled, rfl⟩ := next
    rcases append_eq_append_cons split with ⟨more, inner, -⟩ | ⟨more, rfl, inner⟩
    · exact ih inner
    · obtain ⟨rfl, -⟩ := fulfilled.life.of_create inner
      exact ⟨earlier, sofar, rfl⟩

/-- Where only the last container may go wrong, a container is created, right after the pull of its
image, only when all those before it went well. -/
theorem serves_of_create {served : List Call} (serves : ReflTransGen e.Serves [] served)
    (last : ReflGen e.Lives served calls) {spec : ContainerSpec} {first after : List Call}
    (split : calls = first ++ .create spec :: after) :
    ∃ earlier, ReflTransGen e.Serves [] earlier ∧ first = earlier ++ [.pull spec.image] := by
  cases last with
  | refl => exact serves_of_create_served serves split
  | single life =>
    obtain ⟨block, life, rfl⟩ := life
    rcases append_eq_append_cons split with ⟨more, inner, -⟩ | ⟨more, rfl, inner⟩
    · exact serves_of_create_served serves inner
    · obtain ⟨rfl, -⟩ := life.of_create inner
      exact ⟨served, serves, rfl⟩

theorem lives_of_serves {served : List Call} (serves : ReflTransGen e.Serves before served)
    (last : ReflGen e.Lives served calls) : ReflTransGen e.Lives before calls := by
  have lives : ReflTransGen e.Lives before served := ReflTransGen.mono (fun _ _ => Serves.lives) _ _ serves
  cases last with
  | refl => exact lives
  | single life => exact lives.tail life

end Disposal

end Drydock.Engine
