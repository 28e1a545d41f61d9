import Drydock.Proofs.Engine.Deeds
import Drydock.Proofs.Run.Lifecycle

set_option autoImplicit false
set_option relaxedAutoImplicit false

/-!
What the work of a step leaves in the files of the channel. Main statement: after work that gives an
exit code, the files hold what they held before, changed by what its containers did to them in order.
-/

namespace Drydock

namespace Machine

/-- The files hold what containers have left in them in between. -/
def Writes (w : World) (m m' : Machine) : Prop :=
  ∀ c, m.state.channel = some c → ∃ c', m'.state.channel = some c' ∧
    ∃ own, m'.calls = m.calls ++ own ∧ ∀ slot,
      (c'.get slot).content =
        Engine.left slot (c.get slot).content (w.engine.deeds m.calls own)

variable {w : World} {m m' : Machine}

theorem writes_of_calls {own : List Engine.Call} (channel : m'.state.channel = m.state.channel)
    (calls : m'.calls = m.calls ++ own) (idle : w.engine.deeds m.calls own = []) :
    Writes w m m' := by
  intro c opened
  refine ⟨c, channel.trans opened, own, calls, fun slot => ?_⟩
  rw [idle]
  rfl

theorem writes_of_rests (channel : m'.state.channel = m.state.channel) (rests : Rests m m') :
    Writes w m m' :=
  writes_of_calls channel (rests.calls.trans (List.append_nil _).symm) rfl

theorem writes_of_called {c : Engine.Call} (other : ∀ name, c ≠ .wait name) (m : Machine) :
    Writes w m (m.emit (.called c)) :=
  writes_of_calls rfl (calls_emit_called m c) (w.engine.deeds_singleton m.calls other)

instance : IsPreorder Machine (Writes w) where
  refl m := writes_of_rests rfl (refl_of _ m)
  trans m m' m'' first second := by
    intro c opened
    obtain ⟨c', opened', own, calls, contents⟩ := first c opened
    obtain ⟨c'', opened'', own', calls', contents'⟩ := second c' opened'
    refine ⟨c'', opened'', own ++ own', by rw [calls', calls, List.append_assoc], fun slot => ?_⟩
    rw [contents' slot, contents slot, calls, Engine.deeds_append, Engine.left_append]

end Machine

namespace Run

open Engine (Call Deed)

variable {α β : Type} {w : World}

/-- Where a part of a run gives a value, the files hold what its containers left in them. -/
def Writes (w : World) (x : Run α) : Prop :=
  ∀ m a m', x m = (.ok a, m') → Machine.Writes w m m'

namespace Writes

theorem of_keeps {x : Run α} (keeps : Keeps (Machine.Writes w) x) : Writes w x := by
  intro m a m' ran
  have kept := keeps m
  rwa [ran] at kept

theorem of_stays {x : Run α} (stays : ∀ m, (x m).2 = m) : Writes w x :=
  of_keeps (.of_stays stays)

theorem bind {x : Run α} {f : α → Run β} (first : Writes w x) (second : ∀ a, Writes w (f a)) :
    Writes w (x >>= f) := by
  intro m b m' ran
  obtain ⟨a, m₁, ran₁, ran₂⟩ := bind_eq_ok.mp ran
  exact trans_of _ (first m a m₁ ran₁) (second a m₁ b m' ran₂)

end Writes

section Containers

variable {spec : ContainerSpec}

theorem writes_call {c : Call} (other : ∀ name, c ≠ .wait name) : Writes w (call w c) := by
  refine .of_keeps fun m => ?_
  rw [call_state]
  exact Machine.writes_of_called other m

theorem content_of_perform {d : Deed} {m m' : Machine} {c : Channel} (sees : spec.sees d.slot = true)
    (opened : m.state.channel = some c) (done : perform spec d m = (.ok (), m')) :
    ∃ c', m'.state.channel = some c' ∧ ∀ slot,
      (c'.get slot).content = Engine.left slot (c.get slot).content [d] := by
  unfold perform at done
  simp only [opened, sees, if_true] at done
  cases applied : d.apply c with
  | error fault =>
    rw [applied] at done
    cases done
  | ok c' =>
    rw [applied] at done
    cases done
    exact ⟨c', rfl, d.content_of_apply applied⟩

theorem content_of_performAll {deeds : List Deed} {m m' : Machine} {c : Channel}
    (sees : ∀ slot, spec.sees slot = true) (opened : m.state.channel = some c)
    (done : performAll spec deeds m = (.ok (), m')) :
    ∃ c', m'.state.channel = some c' ∧ ∀ slot,
      (c'.get slot).content = Engine.left slot (c.get slot).content deeds := by
  induction deeds generalizing m c with
  | nil =>
    cases done
    exact ⟨c, opened, fun slot => rfl⟩
  | cons d r ih =>
    obtain ⟨_, m₁, first, rest⟩ := bind_eq_ok.mp done
    obtain ⟨c₁, opened₁, contents₁⟩ := content_of_perform (sees d.slot) opened first
    obtain ⟨c', opened', contents⟩ := ih opened₁ rest
    refine ⟨c', opened', fun slot => ?_⟩
    rw [contents slot, contents₁ slot, ← Engine.left_append, List.singleton_append]

theorem conclude_stays (ending : Engine.Ending) (m : Machine) : (conclude ending m).2 = m := by
  cases ending <;> rfl

theorem writes_wait (sees : ∀ slot, spec.sees slot = true) (name : String) :
    Writes w (wait w spec name) := by
  intro m exit m' ran c opened
  have accepted := (wait_eq_ok ran).1
  have calls := (still_wait w spec name m).calls
  rw [ran, Machine.calls_emit_called] at calls
  obtain ⟨_, m₁, called, ran⟩ := bind_eq_ok.mp ran
  cases (call_of_accepted accepted).symm.trans called
  obtain ⟨behaviour, m₁, read, ran⟩ := bind_eq_ok.mp ran
  cases read
  obtain ⟨_, m₂, done, ended⟩ := bind_eq_ok.mp ran
  obtain rfl : m' = m₂ := (congrArg Prod.snd ended).symm.trans (conclude_stays _ m₂)
  have visible : (m.emit (.called (.wait name))).state.channel = some c := opened
  obtain ⟨c', opened', contents⟩ := content_of_performAll sees visible done
  -- A container acts on the files only while it is waited for.
  refine ⟨c', opened', [.wait name], calls, fun slot => ?_⟩
  simp [contents slot, Machine.calls_emit_called, Engine.deeds, accepted]

theorem writes_follow (sees : ∀ slot, spec.sees slot = true) (name : String) :
    Writes w (follow w spec name) := by
  refine (writes_call (by simp)).bind fun _ => (writes_wait sees name).bind fun exit => ?_
  refine (writes_call (by simp)).bind fun _ => Writes.bind (.of_keeps fun m => ?_) fun _ =>
    .of_stays fun _ => rfl
  exact Machine.writes_of_rests rfl ⟨rfl, [.containerOutput exit.logs], rfl, rfl⟩

theorem writes_dispose (step name : String) : Writes w (dispose w step name) := by
  refine .of_keeps fun m => ?_
  obtain ⟨m', gone, calls, state, -⟩ := disposed w step name m
  rw [gone]
  exact Machine.writes_of_calls (by rw [state]) calls rfl

theorem writes_track (sees : ∀ slot, spec.sees slot = true) (step name : String) :
    Writes w (track w step spec name) := by
  intro m code m' ran
  obtain ⟨_, m₁, registered, ran⟩ := bind_eq_ok.mp ran
  cases registered
  obtain ⟨outcome, m₂, attempted, ran⟩ := bind_eq_ok.mp ran
  obtain ⟨_, m₃, gone, ran⟩ := bind_eq_ok.mp ran
  rw [settle_apply] at ran
  cases ran
  have followed : follow w spec name
      { m with state := { m.state with live := m.state.live.insert step name } } = (.ok code, m₂) := by
    have same := Prod.mk.inj attempted
    exact Prod.ext (Except.ok.inj same.1) same.2
  have begun : Machine.Writes w m
      { m with state := { m.state with live := m.state.live.insert step name } } :=
    Machine.writes_of_calls rfl (List.append_nil _).symm rfl
  exact trans_of _ begun (trans_of _ (writes_follow sees name _ _ _ followed)
    (writes_dispose step name _ _ _ gone))

theorem writes_container (sees : ∀ slot, spec.sees slot = true) (step : String) :
    Writes w (container w step spec) := by
  have chosen : Writes w (emit (.imageChosen spec.image)) := .of_keeps fun m =>
    Machine.writes_of_rests rfl ⟨rfl, [.imageChosen spec.image], rfl, rfl⟩
  refine chosen.bind fun _ => (writes_call (by simp)).bind fun _ => ?_
  have created : Writes w (create w spec) := (writes_call (by simp)).bind fun _ => .of_stays fun _ => rfl
  exact created.bind fun name => writes_track sees step name

theorem mem_mounts {s : RunState} {c : Channel} (opened : s.channel = some c) (slot : Slot) :
    Mount.bind (c.path slot) slot.mountPoint ∈ s.mounts := by
  unfold RunState.mounts
  rw [opened]
  cases slot <;> simp

theorem sees_of_mounts {s : RunState} {c : Channel} (opened : s.channel = some c)
    (mounted : s.mounts ⊆ spec.mounts) (slot : Slot) : spec.sees slot = true :=
  List.any_eq_true.mpr ⟨_, mounted (mem_mounts opened slot), by simp [Mount.bind]⟩

end Containers

section Work

variable (w : World)

/-- A container is made in the state in which the files are there, and sees both of them. -/
theorem writes_prepared (step : String) (spec : RunState → ContainerSpec)
    (mounted : ∀ s : RunState, s.mounts ⊆ (spec s).mounts) : Writes w (prepared w step spec) := by
  intro m code m' ran c opened
  obtain ⟨_, m₁, ensured, ran⟩ := bind_eq_ok.mp ran
  obtain ⟨made, m₂, seen, ran⟩ := bind_eq_ok.mp ran
  cases ensured
  cases seen
  have opened' : m.state.ensureFiles.channel = some c.ensureFiles := by
    rw [RunState.ensureFiles, opened]
    rfl
  obtain ⟨c', end_, own, calls, contents⟩ := writes_container
    (sees_of_mounts opened' (mounted m.state.ensureFiles)) step _ code m' ran c.ensureFiles opened'
  refine ⟨c', end_, own, calls, fun slot => ?_⟩
  rw [contents slot, Channel.get_ensureFiles, FileState.content_ensure]
  rfl

theorem writes_clone (c : Clone) : Writes w (clone w c) := by
  refine .of_keeps fun m => ?_
  obtain ⟨outcome, ran, -⟩ := clone_apply w c m
  rw [ran]
  exact Machine.writes_of_rests rfl ⟨rfl, [.cloned c], rfl, rfl⟩

theorem workRules_writes : WorkRules w (fun _ => Writes w) (Writes w) where
  exits _ := .of_stays fun _ => rfl
  fails _ := .of_stays fun _ => rfl
  stays := .of_stays
  cloned := writes_clone w
  bind := .bind
  prepared := writes_prepared w
  andThen first second := by
    refine first.bind fun code => ?_
    split
    · exact .of_stays fun _ => rfl
    · exact second

/-- After work that gives an exit code, the files hold what its containers left in them. -/
theorem writes_work (step : Step) (kind : StepKind) : Writes w (work w step kind) :=
  (workRules_writes w).work step kind

end Work

end Run

end Drydock
