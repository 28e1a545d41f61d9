import Drydock.Proofs.Engine.Life
import Drydock.Proofs.Run.Frame

set_option autoImplicit false
set_option relaxedAutoImplicit false

/-!
What becomes of a container. Main statement: the calls for a container of a step are those of one life,
after which no container is left, and if the container exits with zero, all of them went well.
-/

namespace Drydock

open Relation (ReflTransGen ReflGen)

/-- A failure, or something that leads to one at once: a step that fails, or a clone that is refused. -/
def Event.fails (w : World) : Event → Bool
  | .stepFailed _ _ => true
  | .cloned c =>
    match w.clone c with
    | .ok () => false
    | .error _ => true
  | _ => false

namespace Machine

/-- What is noted in between leads to no failure. -/
def Quiet (w : World) (m m' : Machine) : Prop :=
  ∃ es, m'.events = m.events ++ es ∧ ∀ e ∈ es, e.fails w = false

/-- All containers in between went well, and so did all else. -/
structure Serves (w : World) (m m' : Machine) : Prop where
  calls : ReflTransGen w.engine.Serves m.calls m'.calls
  live : m.state.live = ∅ → m'.state.live = ∅
  quiet : Quiet w m m'

/-- The containers in between went well, but the last may not have; after another failure there are no
calls. -/
structure Breaks (w : World) (m m' : Machine) : Prop where
  calls : ∃ served, ReflTransGen w.engine.Serves m.calls served ∧
    ReflGen w.engine.Lives served m'.calls
  live : m.state.live = ∅ → m'.state.live = ∅
  events : ∃ es es', m'.events = m.events ++ (es ++ es') ∧ (∀ e ∈ es, e.fails w = false) ∧
    Event.calls es' = []

/-- No calls are made. -/
structure Rests (m m' : Machine) : Prop where
  live : m'.state.live = m.state.live
  events : ∃ es, m'.events = m.events ++ es ∧ Event.calls es = []

/-- At most files are changed. -/
structure Still (m m' : Machine) : Prop where
  live : m'.state.live = m.state.live
  events : m'.events = m.events

variable {w : World} {m m' m'' : Machine}

theorem calls_emit_called (m : Machine) (c : Engine.Call) :
    (m.emit (.called c)).calls = m.calls ++ [c] :=
  Event.calls_append _ _

theorem Rests.calls (rests : Rests m m') : m'.calls = m.calls := by
  obtain ⟨es, events, none⟩ := rests.events
  rw [Machine.calls, events, Event.calls_append, none, List.append_nil]
  rfl

theorem Still.calls (still : Still m m') : m'.calls = m.calls :=
  congrArg Event.calls still.events

theorem Quiet.emit {e : Event} (well : e.fails w = false) (m : Machine) : Quiet w m (m.emit e) :=
  ⟨[e], rfl, by simpa using well⟩

theorem Still.rests (still : Still m m') : Rests m m' :=
  ⟨still.live, [], by rw [still.events, List.append_nil], rfl⟩

theorem Still.quiet (still : Still m m') : Quiet w m m' :=
  ⟨[], by rw [still.events, List.append_nil], nofun⟩

instance : IsPreorder Machine Rests where
  refl _ := ⟨rfl, [], (List.append_nil _).symm, rfl⟩
  trans _ _ _ first second := by
    obtain ⟨es, events, none⟩ := first.events
    obtain ⟨es', events', none'⟩ := second.events
    refine ⟨second.live.trans first.live, es ++ es', ?_, ?_⟩
    · rw [events', events, List.append_assoc]
    · rw [Event.calls_append, none, none']
      rfl

instance : IsPreorder Machine Still where
  refl _ := ⟨rfl, rfl⟩
  trans _ _ _ first second := ⟨second.live.trans first.live, second.events.trans first.events⟩

instance : IsPreorder Machine (Quiet w) where
  refl m := ⟨[], (List.append_nil _).symm, nofun⟩
  trans m m' m'' first second := by
    obtain ⟨es, events, well⟩ := first
    obtain ⟨es', events', well'⟩ := second
    refine ⟨es ++ es', ?_, fun e found => (List.mem_append.mp found).elim (well e) (well' e)⟩
    rw [events', events, List.append_assoc]

instance : IsPreorder Machine (Serves w) where
  refl m := ⟨.refl, id, refl_of _ m⟩
  trans _ _ _ first second := ⟨first.calls.trans second.calls,
    fun none => second.live (first.live none), trans_of _ first.quiet second.quiet⟩

theorem Serves.breaks (serves : Serves w m m') : Breaks w m m' := by
  obtain ⟨es, events, well⟩ := serves.quiet
  exact ⟨⟨_, serves.calls, .refl⟩, serves.live, es, [], by rw [events, List.append_nil], well, rfl⟩

theorem Serves.trans_breaks (first : Serves w m m') (second : Breaks w m' m'') : Breaks w m m'' := by
  obtain ⟨served, chain, last⟩ := second.calls
  obtain ⟨es, events, well⟩ := first.quiet
  obtain ⟨es₁, es₂, events', well', none⟩ := second.events
  refine ⟨⟨served, first.calls.trans chain, last⟩, fun empty => second.live (first.live empty),
    es ++ es₁, es₂, ?_, fun e found => (List.mem_append.mp found).elim (well e) (well' e), none⟩
  rw [events', events]
  simp only [List.append_assoc]

theorem Breaks.trans_rests (first : Breaks w m m') (second : Rests m' m'') : Breaks w m m'' := by
  obtain ⟨served, chain, last⟩ := first.calls
  obtain ⟨es₁, es₂, events, well, none⟩ := first.events
  obtain ⟨es, events', none'⟩ := second.events
  refine ⟨⟨served, chain, second.calls ▸ last⟩, fun empty => second.live.trans (first.live empty),
    es₁, es₂ ++ es, ?_, well, by rw [Event.calls_append, none, none']; rfl⟩
  rw [events', events]
  simp only [List.append_assoc]

theorem Rests.serves (rests : Rests m m') (quiet : Quiet w m m') : Serves w m m' :=
  ⟨rests.calls ▸ .refl, fun none => rests.live.trans none, quiet⟩

theorem Still.serves (still : Still m m') : Serves w m m' :=
  still.rests.serves still.quiet

/-- The calls in between are one life of a container, after which no container is left. -/
theorem breaks_of_life (life : w.engine.Lives m.calls m'.calls) (quiet : Quiet w m m')
    (live : m.state.live = ∅ → m'.state.live = ∅) : Breaks w m m' := by
  obtain ⟨es, events, well⟩ := quiet
  exact ⟨⟨_, .refl, .single life⟩, live, es, [], by rw [events, List.append_nil], well, rfl⟩

end Machine

namespace Run

open Engine (Call Deed Ending)
open Machine (Still Quiet)

variable {α β : Type} {w : World} {good : α → Prop} {good' : β → Prop}

/-- However a part of a run ends, only its last container may go wrong, and if it gives a value that is
good, all went well. -/
def Serves (w : World) (good : α → Prop) (x : Run α) : Prop :=
  ∀ m, Machine.Breaks w m (x m).2 ∧ ∀ a, (x m).1 = .ok a → good a → Machine.Serves w m (x m).2

namespace Serves

theorem of_keeps {x : Run α} (keeps : Keeps (Machine.Serves w) x) : Serves w good x :=
  fun m => ⟨(keeps m).breaks, fun _ _ _ => keeps m⟩

theorem of_stays {x : Run α} (stays : ∀ m, (x m).2 = m) : Serves w good x :=
  of_keeps (.of_stays stays)

theorem bind {x : Run α} {f : α → Run β} (first : Serves w (fun _ => True) x)
    (second : ∀ a, Serves w good' (f a)) : Serves w good' (x >>= f) := by
  intro m
  have before := first m
  rw [bind_apply]
  rcases ran : x m with ⟨s | a, m₁⟩
  · rw [ran] at before
    exact ⟨before.1, fun _ ended => nomatch ended⟩
  · rw [ran] at before
    have served := before.2 a rfl trivial
    obtain ⟨breaks, serves⟩ := second a m₁
    exact ⟨served.trans_breaks breaks, fun b ended good => trans_of _ served (serves b ended good)⟩

end Serves

section Containers

variable {m m' : Machine} {spec : ContainerSpec} {name : String}

theorem call_state (w : World) (c : Call) (m : Machine) : (call w c m).2 = m.emit (.called c) := by
  unfold call
  split <;> rfl

theorem call_of_accepted {c : Call} (accepted : w.engine.refuses m.calls c = none) :
    call w c m = (.ok (), m.emit (.called c)) := by
  unfold call
  rw [accepted]

theorem call_of_refused {c : Call} {message : String}
    (refused : w.engine.refuses m.calls c = some message) :
    call w c m = (.error (.failure (.of .containerRuntime message)), m.emit (.called c)) := by
  unfold call
  rw [refused]

theorem still_performAll (spec : ContainerSpec) (deeds : List Deed) :
    Keeps Still (performAll spec deeds) := by
  induction deeds with
  | nil => exact .pure ()
  | cons d r ih =>
    refine Keeps.bind (fun m => ?_) fun _ => ih
    unfold perform
    split
    · split
      · split <;> exact ⟨rfl, rfl⟩
      · exact ⟨rfl, rfl⟩
    · exact ⟨rfl, rfl⟩

theorem call_eq_ok {c : Call} {r : Unit} (ran : call w c m = (.ok r, m')) :
    w.engine.refuses m.calls c = none ∧ m' = m.emit (.called c) := by
  cases refused : w.engine.refuses m.calls c with
  | some message => cases (call_of_refused refused).symm.trans ran
  | none =>
    cases (call_of_accepted refused).symm.trans ran
    exact ⟨rfl, rfl⟩

theorem performAll_eq_error {deeds : List Deed} {reason : Stop}
    (ended : performAll spec deeds m = (.error reason, m')) :
    ∃ d ∈ deeds, ∃ c fault, d.apply c = .error fault ∧ reason = .file fault := by
  induction deeds generalizing m with
  | nil => cases ended
  | cons d r ih =>
    rcases bind_eq_error.mp ended with stopped | ⟨_, m₁, -, later⟩
    · unfold perform at stopped
      split at stopped
      · split at stopped
        · split at stopped
          · cases stopped
          · rename_i faulty
            cases stopped
            exact ⟨d, List.mem_cons_self, _, _, faulty, rfl⟩
        · cases stopped
      · cases stopped
    · obtain ⟨d', member, undone⟩ := ih later
      exact ⟨d', List.mem_cons_of_mem d member, undone⟩

theorem still_conclude (ending : Ending) : Keeps Still (conclude ending) := by
  cases ending with
  | exits code logs => exact .pure _
  | fails fault message job step => exact .fail _
  | breaks fault => exact .stop _
  | interrupted message => exact .stop _

theorem still_wait (w : World) (spec : ContainerSpec) (name : String) (m : Machine) :
    Still (m.emit (.called (.wait name))) (wait w spec name m).2 := by
  have still : Still (call w (.wait name) m).2 (wait w spec name m).2 :=
    Keeps.after_first (fun _ => (Keeps.read _).bind fun (b : Engine.Behaviour) =>
      (still_performAll spec b.deeds).bind fun _ => still_conclude b.ending) m
  rwa [call_state] at still

theorem conclude_eq_ok {ending : Ending} {exit : Exit}
    (ended : conclude ending m = (.ok exit, m')) : ending = .exits exit.code exit.logs := by
  cases ending <;> cases ended
  rfl

theorem wait_eq_ok {exit : Exit} (ended : wait w spec name m = (.ok exit, m')) :
    w.engine.refuses m.calls (.wait name) = none ∧
      (w.engine.behaviour (m.calls ++ [.wait name]) name).ending = .exits exit.code exit.logs := by
  obtain ⟨_, m₁, called, ended⟩ := bind_eq_ok.mp ended
  obtain ⟨accepted, rfl⟩ := call_eq_ok called
  obtain ⟨behaviour, m₂, read, ended⟩ := bind_eq_ok.mp ended
  cases read
  obtain ⟨_, m₃, -, ended⟩ := bind_eq_ok.mp ended
  rw [← Machine.calls_emit_called]
  exact ⟨accepted, conclude_eq_ok ended⟩

/-- A container that was started: how it was used, and that it was waited for in vain or exited. -/
structure Followed (w : World) (m : Machine) (name : String) (used : List Call)
    (r : Except Stop Int × Machine) : Prop where
  use : used ∈ Engine.uses name
  calls : r.2.calls = m.calls ++ .start name :: used
  live : r.2.state.live = m.state.live
  quiet : Quiet w m r.2
  exited : ∀ code, r.1 = .ok code → used = [.wait name, .logs name] ∧
    w.engine.Accepts m.calls [.start name, .wait name, .logs name] ∧ ∃ logs,
      (w.engine.behaviour (m.calls ++ [.start name, .wait name]) name).ending = .exits code logs

theorem followed (w : World) (spec : ContainerSpec) (name : String) (m : Machine) :
    ∃ used, Followed w m name used (follow w spec name m) := by
  have noted : ∀ c m, Quiet w m (Machine.emit m (.called c)) := fun c m => .emit rfl m
  unfold follow
  rw [bind_apply]
  cases started : w.engine.refuses m.calls (.start name) with
  | some message =>
    rw [call_of_refused started]
    exact ⟨[], by simp [Engine.uses], Machine.calls_emit_called m _, rfl, noted _ m, by simp⟩
  | none =>
    rw [call_of_accepted started]
    dsimp only
    have still := still_wait w spec name (m.emit (.called (.start name)))
    have quiet := trans_of (Quiet w) (trans_of _ (noted _ m) (noted _ _)) still.quiet
    have calls := still.calls
    rw [Machine.calls_emit_called, Machine.calls_emit_called, List.append_assoc] at calls
    rw [bind_apply]
    rcases ran : wait w spec name (m.emit (.called (.start name))) with ⟨stop | exit, m₁⟩
    · rw [ran] at still quiet calls
      exact ⟨[.wait name], by simp [Engine.uses], calls, still.live, quiet, by simp⟩
    rw [ran] at still quiet calls
    obtain ⟨waited, exited⟩ := wait_eq_ok ran
    rw [Machine.calls_emit_called] at waited exited
    have asked : (m₁.emit (.called (.logs name))).calls =
        m.calls ++ .start name :: [.wait name, .logs name] := by
      rw [Machine.calls_emit_called, calls, List.append_assoc]
      rfl
    dsimp only
    rw [bind_apply]
    cases shown : w.engine.refuses m₁.calls (.logs name) with
    | some message =>
      rw [call_of_refused shown]
      exact ⟨[.wait name, .logs name], by simp [Engine.uses], asked, still.live,
        trans_of _ quiet (noted _ m₁), by simp⟩
    | none =>
      rw [call_of_accepted shown]
      have printed : Machine.Rests (m₁.emit (.called (.logs name)))
        ((m₁.emit (.called (.logs name))).emit (.containerOutput exit.logs)) :=
        ⟨rfl, [.containerOutput exit.logs], rfl, rfl⟩
      refine ⟨[.wait name, .logs name], by simp [Engine.uses], printed.calls.trans asked, still.live,
        trans_of _ quiet (trans_of _ (noted _ m₁) (.emit rfl _)), ?_⟩
      intro code same
      cases same
      rw [calls] at shown
      rw [List.append_assoc] at exited
      exact ⟨rfl, ⟨started, waited, by simpa using shown, trivial⟩, exit.logs, exited⟩

theorem tidied (w : World) (c : Call) (m : Machine) :
    ∃ m', tidy w c m = (.ok (), m') ∧ m'.calls = m.calls ++ [c] ∧ m'.state = m.state ∧
      Quiet w m m' := by
  have noted : Quiet w m (m.emit (.called c)) := .emit rfl m
  unfold tidy
  split
  · rename_i message _
    have warned : Machine.Rests (m.emit (.called c))
      ((m.emit (.called c)).emit (.tidyingFailed c message)) :=
      ⟨rfl, [.tidyingFailed c message], rfl, rfl⟩
    exact ⟨_, rfl, warned.calls.trans (Machine.calls_emit_called m c), rfl,
      trans_of _ noted (.emit rfl _)⟩
  · exact ⟨_, rfl, Machine.calls_emit_called m c, rfl, noted⟩

theorem disposed (w : World) (step name : String) (m : Machine) :
    ∃ m', dispose w step name m = (.ok (), m') ∧ m'.calls = m.calls ++ [.stop name, .remove name] ∧
      m'.state = { m.state with live := m.state.live.erase step } ∧ Quiet w m m' := by
  obtain ⟨m₁, stopped, calls₁, state₁, quiet₁⟩ := tidied w (.stop name) m
  obtain ⟨m₂, removed, calls₂, state₂, quiet₂⟩ := tidied w (.remove name) m₁
  unfold dispose
  rw [bind_apply, stopped]
  dsimp only
  rw [bind_apply, removed]
  refine ⟨_, rfl, ?_, ?_, trans_of _ quiet₁ quiet₂⟩
  · rw [calls₁, List.append_assoc] at calls₂
    exact calls₂
  · rw [← state₁, ← state₂]

theorem create_of_refused {message : String}
    (refused : w.engine.refuses m.calls (.create spec) = some message) :
    create w spec m =
      (.error (.failure (.of .containerRuntime message)), m.emit (.called (.create spec))) := by
  unfold create
  rw [bind_apply, call_of_refused refused]

theorem create_of_accepted (accepted : w.engine.refuses m.calls (.create spec) = none) :
    create w spec m =
      (.ok (w.engine.identifier (m.calls ++ [.create spec])), m.emit (.called (.create spec))) := by
  unfold create
  rw [bind_apply, call_of_accepted accepted]
  dsimp only
  rw [read_apply, Machine.calls_emit_called]

theorem create_eq_ok {spec : ContainerSpec} {name : String}
    (ran : create w spec m = (.ok name, m')) : w.engine.refuses m.calls (.create spec) = none ∧
      name = w.engine.identifier (m.calls ++ [.create spec]) ∧
      m' = m.emit (.called (.create spec)) := by
  obtain ⟨_, m₁, called, read⟩ := bind_eq_ok.mp ran
  obtain ⟨accepted, rfl⟩ := call_eq_ok called
  cases read
  exact ⟨accepted, congrArg w.engine.identifier (Machine.calls_emit_called m _), rfl⟩

/-- A container that is created for a step is tracked, followed and disposed of. -/
def track (w : World) (step : String) (spec : ContainerSpec) (name : String) : Run Int := do
  register step name
  let outcome ← attempt (follow w spec name)
  dispose w step name
  settle outcome

/-- Disposal never stops, so a container that was tracked ends as it did while it was followed. -/
theorem track_apply (w : World) (step : String) (spec : ContainerSpec) (name : String) (m : Machine) :
    track w step spec name m =
      let r := follow w spec name
        { m with state := { m.state with live := m.state.live.insert step name } }
      (r.1, (dispose w step name r.2).2) := by
  dsimp only
  generalize ran : follow w spec name
    { m with state := { m.state with live := m.state.live.insert step name } } = r
  obtain ⟨m', gone, -⟩ := disposed w step name r.2
  change (dispose w step name >>= fun _ => settle (follow w spec name
    { m with state := { m.state with live := m.state.live.insert step name } }).1)
    (follow w spec name
      { m with state := { m.state with live := m.state.live.insert step name } }).2 = _
  rw [ran, bind_apply, gone]
  exact settle_apply _ _

theorem erase_insert_empty (step name : String) :
    ((∅ : Bindings String).insert step name).erase step = ∅ := by
  ext1
  simp [Bindings.erase, Bindings.insert, EmptyCollection.emptyCollection, Bindings.empty, putEntry]

/-- A container that is created is started, used, stopped and removed, whatever comes of it. -/
theorem tracked (w : World) (step : String) (spec : ContainerSpec) (name : String) (m : Machine) :
    ∃ used ∈ Engine.uses name, (track w step spec name m).2.calls =
        m.calls ++ Engine.disposal name used ∧
      (m.state.live = ∅ → (track w step spec name m).2.state.live = ∅) ∧
      Quiet w m (track w step spec name m).2 ∧
      ∀ code, (track w step spec name m).1 = .ok code → used = [.wait name, .logs name] ∧
        w.engine.Accepts m.calls [.start name, .wait name, .logs name] ∧ ∃ logs,
          (w.engine.behaviour (m.calls ++ [.start name, .wait name]) name).ending =
            .exits code logs := by
  obtain ⟨used, use, calls, live, quiet, exited⟩ := followed w spec name
    { m with state := { m.state with live := m.state.live.insert step name } }
  rw [track_apply]
  dsimp only
  generalize follow w spec name
    { m with state := { m.state with live := m.state.live.insert step name } } = r at *
  obtain ⟨m', gone, calls', state', quiet'⟩ := disposed w step name r.2
  rw [gone]
  refine ⟨used, use, ?_, fun none => ?_, trans_of (Quiet w) quiet quiet', exited⟩
  · rw [calls', calls, List.append_assoc]
    rfl
  · rw [state', live, none, erase_insert_empty]

theorem launch_serves (w : World) (step : String) (spec : ContainerSpec) :
    Serves w (fun code => code = 0)
      (call w (.pull spec.image) >>= fun _ => create w spec >>= track w step spec) := by
  intro m
  have noted : ∀ c m, Quiet w m (Machine.emit m (.called c)) := fun c m => .emit rfl m
  have pulling := Machine.calls_emit_called m (.pull spec.image)
  rw [bind_apply]
  cases pulled : w.engine.refuses m.calls (.pull spec.image) with
  | some message =>
    rw [call_of_refused pulled]
    have life : Engine.Life w.engine m.calls [.pull spec.image] :=
      .notPulled spec.image (by simp [pulled])
    exact ⟨Machine.breaks_of_life ⟨_, life, pulling⟩ (noted _ m) id, nofun⟩
  | none =>
    rw [call_of_accepted pulled]
    dsimp only
    rw [bind_apply]
    have creating : ((m.emit (.called (.pull spec.image))).emit (.called (.create spec))).calls =
        m.calls ++ [.pull spec.image, .create spec] := by
      rw [Machine.calls_emit_called, pulling, List.append_assoc]
      rfl
    have quiet := trans_of (Quiet w) (noted (.pull spec.image) m) (noted (.create spec) _)
    cases created : w.engine.refuses (m.emit (.called (.pull spec.image))).calls (.create spec) with
    | some message =>
      rw [create_of_refused created]
      rw [pulling] at created
      have life : Engine.Life w.engine m.calls [.pull spec.image, .create spec] :=
        .notCreated spec ⟨pulled, trivial⟩ (by simp [created])
      exact ⟨Machine.breaks_of_life ⟨_, life, creating⟩ quiet id, nofun⟩
    | none =>
      rw [create_of_accepted created]
      dsimp only
      rw [pulling] at created
      have accepted : w.engine.Accepts m.calls [.pull spec.image, .create spec] :=
        ⟨pulled, created, trivial⟩
      have name : w.engine.identifier
          ((m.emit (.called (.pull spec.image))).calls ++ [.create spec]) =
            w.engine.named m.calls spec := by
        rw [pulling, List.append_assoc]
        rfl
      rw [name]
      -- From here on the container is disposed of, so only what it did decides whether all went well.
      obtain ⟨used, use, calls, live, quiet', exited⟩ := tracked w step spec
        (w.engine.named m.calls spec) ((m.emit (.called (.pull spec.image))).emit (.called (.create spec)))
      rw [creating, List.append_assoc] at calls
      refine ⟨Machine.breaks_of_life ⟨_, .ended spec used accepted use, calls⟩
        (trans_of _ quiet quiet') live, ?_⟩
      rintro _ ran rfl
      obtain ⟨rfl, more, logs, ending⟩ := exited 0 ran
      refine ⟨.single ⟨_, .mk spec _ rfl logs ?_ ?_, calls⟩, live, trans_of _ quiet quiet'⟩
      · rw [creating] at more
        obtain ⟨started, waited, shown, -⟩ := more
        exact ⟨pulled, created, by simpa using started, by simpa using waited, by simpa using shown,
          trivial⟩
      · rw [creating, List.append_assoc] at ending
        exact ending

/-- The calls for a container are those of one life. Once it has been removed no container is left; and
if its exit code is zero, all went well. -/
theorem container_serves (w : World) (step : String) (spec : ContainerSpec) :
    Serves w (fun code => code = 0) (container w step spec) := by
  have chosen : Serves w (fun _ => True) (emit (.imageChosen spec.image)) := .of_keeps fun m =>
    Machine.Rests.serves ⟨rfl, [.imageChosen spec.image], rfl, rfl⟩ (.emit rfl m)
  exact chosen.bind fun _ => launch_serves w step spec

end Containers

end Run

end Drydock
