import Drydock.Proofs.Run.Surfacing
import Mathlib

set_option autoImplicit false
set_option relaxedAutoImplicit false

/-!
Interruptions. Main statement: a run of declared jobs is stopped as interrupted exactly if a step
that it reaches waits for a container and that wait is interrupted.
-/

namespace Drydock

namespace Engine

/-- Among calls that are made after others there is a wait that is not refused and is
interrupted. -/
def Interrupts (e : Engine) (before own : List Call) (message : String) : Prop :=
  ∃ front name rest, own = front ++ .wait name :: rest ∧
    e.refuses (before ++ front) (.wait name) = none ∧
    (e.behaviour (before ++ front ++ [.wait name]) name).ending = .interrupted message

variable {e : Engine} {before first rest own : List Call} {name message : String}

theorem interrupts_append :
    e.Interrupts before (first ++ rest) message ↔
      e.Interrupts before first message ∨ e.Interrupts (before ++ first) rest message := by
  constructor
  · rintro ⟨front, name, after, split, accepted, interrupted⟩
    rcases append_eq_append_cons split with ⟨more, inner, -⟩ | ⟨more, rfl, inner⟩
    · exact .inl ⟨front, name, more, inner, accepted, interrupted⟩
    · exact .inr ⟨more, name, after, inner, by simpa using accepted, by simpa using interrupted⟩
  · rintro (⟨front, name, after, rfl, accepted, interrupted⟩ |
      ⟨front, name, after, rfl, accepted, interrupted⟩)
    · exact ⟨front, name, after ++ rest, by simp, accepted, interrupted⟩
    · exact ⟨first ++ front, name, after, by simp, by simpa using accepted,
        by simpa using interrupted⟩

theorem not_interrupts_of_no_wait (other : ∀ c ∈ own, ∀ name, c ≠ .wait name) :
    ¬e.Interrupts before own message := by
  rintro ⟨front, name, rest, rfl, -⟩
  exact other (.wait name) (by simp) name rfl

theorem interrupts_wait :
    e.Interrupts before [.wait name] message ↔ e.refuses before (.wait name) = none ∧
      (e.behaviour (before ++ [.wait name]) name).ending = .interrupted message := by
  constructor
  · rintro ⟨front, other, rest, split, accepted, interrupted⟩
    cases front with
    | nil =>
      cases split
      exact ⟨by simpa using accepted, by simpa using interrupted⟩
    | cons c front => simp at split
  · rintro ⟨accepted, interrupted⟩
    exact ⟨[], name, [], rfl, by simpa using accepted, by simpa using interrupted⟩

end Engine

namespace Run

open Engine (Call Ending)

variable {α β : Type} {w : World} {x : Run α} {m m' : Machine} {message : String}

/-- A part of a run is stopped as interrupted only where one of its waits is interrupted, and always
there, unless it is stopped at a file. -/
def Heeds (w : World) (x : Run α) : Prop :=
  ∀ m, ∃ own, (x m).2.calls = m.calls ++ own ∧ ∀ message,
    ((x m).1 = .error (.interrupted message) → w.engine.Interrupts m.calls own message) ∧
    (w.engine.Interrupts m.calls own message →
      (x m).1 = .error (.interrupted message) ∨ ∃ fault, (x m).1 = .error (.file fault))

namespace Heeds

/-- What makes no wait and is not stopped as interrupted heeds interruptions. -/
theorem of_no_wait (calls : ∀ m, ∃ own, (x m).2.calls = m.calls ++ own ∧
      ∀ c ∈ own, ∀ name, c ≠ .wait name)
    (other : ∀ m message, (x m).1 ≠ .error (.interrupted message)) : Heeds w x := by
  intro m
  obtain ⟨own, made, none⟩ := calls m
  exact ⟨own, made, fun message => ⟨fun stopped => absurd stopped (other m message),
    fun interrupts => absurd interrupts (Engine.not_interrupts_of_no_wait none)⟩⟩

/-- What makes no call and is not stopped as interrupted heeds interruptions. -/
theorem of_calls (calls : ∀ m, (x m).2.calls = m.calls)
    (other : ∀ m message, (x m).1 ≠ .error (.interrupted message)) : Heeds w x :=
  of_no_wait (fun m => ⟨[], by rw [calls, List.append_nil], by simp⟩) other

theorem pure (a : α) : Heeds w (Pure.pure a : Run α) := of_calls (fun _ => rfl) (by simp)

theorem fail (f : Failure) : Heeds w (Run.fail f : Run α) :=
  of_calls (fun _ => rfl) (by simp [Run.fail])

theorem read (f : Machine → α) : Heeds w (Run.read f) := of_calls (fun _ => rfl) (by simp)

theorem change {f : Machine → Machine} (calls : ∀ m, (f m).calls = m.calls) :
    Heeds w (Run.change f) := of_calls calls (by simp)

theorem bind {f : α → Run β} (first : Heeds w x) (second : ∀ a, Heeds w (f a)) :
    Heeds w (x >>= f) := by
  intro m
  obtain ⟨own, calls, heeds⟩ := first m
  rw [bind_apply]
  rcases ran : x m with ⟨reason | a, m₁⟩
  · rw [ran] at calls heeds
    exact ⟨own, calls, fun message => by simpa using heeds message⟩
  · rw [ran] at calls heeds
    obtain ⟨own', calls', heeds'⟩ := second a m₁
    -- The first part gave a value, so none of its waits was interrupted.
    have well : ∀ message, ¬w.engine.Interrupts m.calls own message := fun message interrupts => by
      simpa using (heeds message).2 interrupts
    have made : m₁.calls = m.calls ++ own := calls
    refine ⟨own ++ own', by rw [calls', made, List.append_assoc], fun message => ?_⟩
    rw [Engine.interrupts_append, or_iff_right (well message), ← made]
    exact heeds' message

theorem call {c : Call} (other : ∀ name, c ≠ .wait name) : Heeds w (Run.call w c) := by
  refine of_no_wait (fun m => ⟨[c], ?_, by simpa using other⟩) fun m message => ?_
  · rw [call_state, Machine.calls_emit_called]
  · unfold Run.call
    split <;> simp

theorem wait (spec : ContainerSpec) (name : String) : Heeds w (Run.wait w spec name) := by
  intro m
  have calls : (Run.wait w spec name m).2.calls = m.calls ++ [.wait name] := by
    rw [(still_wait w spec name m).calls, Machine.calls_emit_called]
  refine ⟨[.wait name], calls, fun message => ?_⟩
  rw [Engine.interrupts_wait]
  unfold Run.wait
  rw [bind_apply]
  cases refused : w.engine.refuses m.calls (.wait name) with
  | some text =>
    rw [call_of_refused refused]
    simp
  | none =>
    rw [call_of_accepted refused]
    dsimp only
    rw [bind_apply, read_apply]
    dsimp only
    rw [Machine.calls_emit_called, bind_apply]
    rcases done : performAll spec (w.engine.behaviour (m.calls ++ [.wait name]) name).deeds
      (m.emit (.called (.wait name))) with ⟨reason | _, m₁⟩
    · obtain ⟨_, -, _, fault, -, rfl⟩ := performAll_eq_error done
      simp [done]
    · rw [done]
      dsimp only
      cases ending : (w.engine.behaviour (m.calls ++ [.wait name]) name).ending <;>
        simp [conclude, Run.fail, eq_comm]

theorem follow (spec : ContainerSpec) (name : String) : Heeds w (Run.follow w spec name) := by
  refine (call (by simp)).bind fun _ => (wait spec name).bind fun exit => ?_
  refine (call (by simp)).bind fun _ => Heeds.bind (change fun m => ?_) fun _ => .pure exit.code
  exact Machine.Rests.calls ⟨rfl, [.containerOutput exit.logs], rfl, rfl⟩

/-- However a container is disposed of, what stops its step is what stopped it. -/
theorem track (step : String) (spec : ContainerSpec) (name : String) :
    Heeds w (Run.track w step spec name) := by
  intro m
  rw [track_apply]
  dsimp only
  -- Disposal waits for nothing, so what is heeded is the outcome of `follow`.
  obtain ⟨own, calls, heeds⟩ := follow (w := w) spec name
    { m with state := { m.state with live := m.state.live.insert step name } }
  generalize Run.follow w spec name
    { m with state := { m.state with live := m.state.live.insert step name } } = r at *
  obtain ⟨m₁, gone, made, -⟩ := disposed w step name r.2
  have silent (message : String) :
      ¬w.engine.Interrupts (m.calls ++ own) [.stop name, .remove name] message :=
    Engine.not_interrupts_of_no_wait (by simp)
  rw [gone]
  refine ⟨own ++ [.stop name, .remove name], ?_, fun message => ?_⟩
  · rw [made, calls, List.append_assoc]
    rfl
  · rw [Engine.interrupts_append, or_iff_left (silent message)]
    exact heeds message

theorem container (step : String) (spec : ContainerSpec) : Heeds w (Run.container w step spec) := by
  have chosen : Heeds w (emit (.imageChosen spec.image)) :=
    change fun m => Machine.Rests.calls ⟨rfl, [.imageChosen spec.image], rfl, rfl⟩
  have created : Heeds w (create w spec) := (call (by simp)).bind fun _ => .read _
  refine chosen.bind fun _ => (call (by simp)).bind fun _ => created.bind fun name => ?_
  exact track step spec name

theorem rules (w : World) : ExitRules w (Heeds w) where
  exits := .pure
  fails := .fail
  prepared step spec _ :=
    Heeds.bind (change fun _ => rfl) fun _ => (read _).bind fun made => container step made
  andThen first second := by
    refine first.bind fun code => ?_
    split
    · exact .pure code
    · exact second

theorem metadata (uses : String) (files : Path) : Heeds w (Run.metadata w uses files) := by
  refine of_calls (fun m => by rw [metadata_stays]) fun m message => ?_
  unfold Run.metadata
  rcases w.metadata files.text with (text | fault | fault) | a <;> simp [Run.fail]

theorem clone (c : Clone) : Heeds w (Run.clone w c) := by
  have noted : Heeds w (emit (.cloned c)) :=
    change fun m => Machine.Rests.calls ⟨rfl, [.cloned c], rfl, rfl⟩
  refine noted.bind fun _ => of_calls (fun m => ?_) fun m message => ?_ <;>
    rcases w.clone c with (text | program) | _ <;> simp [Run.fail]

theorem action (s : Step) : Heeds w (Run.action w s) := by
  have loaded : ∀ files, Heeds w (Run.metadata w s.uses files >>= fun a => described w s a files) :=
    fun files => (metadata s.uses files).bind fun a => (rules w).described s a files
  unfold Run.action
  split
  · exact (read _).bind fun _ => loaded _
  · split
    · exact .fail _
    · exact (rules w).image s _ _ _
  · exact (clone _).bind fun _ => loaded _
  · exact .fail _

/-- The work of a step heeds interruptions. -/
theorem work (s : Step) (kind : StepKind) : Heeds w (Run.work w s kind) := by
  cases kind with
  | run => exact (rules w).command s
  | action => exact action s

end Heeds

end Run

namespace Visit

variable {w : World} {v : Visit} {message : String}

/-- A step that is reached is interrupted: its condition holds, and among the calls of its work there
is a wait that is interrupted, with files that let the container do what it does until then. -/
structure Interrupted (v : Visit) (w : World) (message : String) : Prop where
  admitted : v.start.context.Admits v.step.condition
  waits : ∃ kind own, v.step.work? = some kind ∧
    (Run.work w v.step kind (v.arrival.begin_ v.step)).2.calls = v.start.calls ++ own ∧
    w.engine.Interrupts v.start.calls own message ∧
    ∀ fault, (Run.work w v.step kind (v.arrival.begin_ v.step)).1 ≠ .error (.file fault)

/-- A step stops a run as interrupted exactly if it is interrupted. -/
theorem result_eq_interrupted :
    (v.result w).1 = .error (.interrupted message) ↔ v.Interrupted w message := by
  have start : (v.arrival.begin_ v.step).calls = v.start.calls :=
    Machine.Rests.calls ⟨rfl, [v.mark], rfl, rfl⟩
  constructor
  · intro stopped
    rcases ended : v.result w with ⟨reason | _, m⟩
    · rw [ended] at stopped
      cases stopped
      cases stops ended with
      | escaped admitted kind reason m works worked escapes =>
        obtain ⟨own, calls, heeds⟩ := Run.Heeds.work (w := w) v.step kind (v.arrival.begin_ v.step)
        rw [start] at calls heeds
        refine ⟨admitted, kind, own, works, calls, (heeds message).1 (by rw [worked]), ?_⟩
        simp [worked]
    · rw [ended] at stopped
      cases stopped
  · rintro ⟨admitted, kind, own, works, calls, interrupts, whole⟩
    obtain ⟨own', calls', heeds⟩ := Run.Heeds.work (w := w) v.step kind (v.arrival.begin_ v.step)
    rw [start] at calls' heeds
    obtain rfl : own = own' := List.append_cancel_left (calls.symm.trans calls')
    rcases (heeds message).2 interrupts with worked | ⟨fault, worked⟩
    · exact result_of_escapes admitted works worked trivial
    · exact absurd worked (whole fault)

end Visit

/-- A run whose planned jobs are declared is stopped as interrupted exactly if a step that it reaches
is interrupted. -/
theorem Workflow.execute_eq_interrupted {w : World} {workingDir message : String}
    {scratch : Except FileFault String} {workflow : Workflow} {p : Plan} {c : Context}
    (named : ∀ u ∈ p.jobs, u.wouldRun = true → workflow.jobs.get? u.name ≠ none) :
    (workflow.execute w workingDir scratch p c).ending = .stopped (.interrupted message) ↔
      ∃ v ∈ workflow.visits w workingDir scratch p c, v.Interrupted w message := by
  cases scratch with
  | error fault =>
    have unvisited : workflow.visits w workingDir (.error fault) p c = [] := rfl
    simp [unvisited, Workflow.execute]
  | ok directory =>
    constructor
    · intro ended
      obtain ⟨m', ran, noFailure⟩ := stopped_of_execute ended
      obtain ⟨before, v, split, -, m, result⟩ := Run.last_of_escaped named ran noFailure
      refine ⟨v, ?_, Visit.result_eq_interrupted.mp (by rw [result])⟩
      change v ∈ Run.visits w workflow.jobs p.jobs (.initial workingDir directory c)
      rw [split]
      exact List.mem_append_right _ List.mem_cons_self
    · rintro ⟨v, member, interrupted⟩
      have stopped := Visit.result_eq_interrupted.mpr interrupted
      rw [ending_of_execute, Run.jobs_of_escaped named member stopped trivial]
      rfl

end Drydock
