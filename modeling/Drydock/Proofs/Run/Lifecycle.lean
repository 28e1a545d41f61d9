import Drydock.Proofs.Run.Container
import Drydock.Proofs.Run.Reach

set_option autoImplicit false
set_option relaxedAutoImplicit false

/-!
The containers of a run. Main statement: the calls of a run are lives of containers one after another,
and whatever stops the run, no container is left, the files are given up and the engine is closed once.
-/

namespace Drydock

open Relation (ReflTransGen ReflGen)

namespace Run

open Machine (Rests Still Quiet)

variable {w : World} {m m' : Machine}

section Work

theorem prepared_serves (w : World) (step : String) (spec : RunState → ContainerSpec) :
    Serves w (fun code => code = 0) (prepared w step spec) := by
  have files : Serves w (fun _ => True) (changeState RunState.ensureFiles) :=
    .of_keeps fun _ => Still.serves ⟨rfl, rfl⟩
  exact files.bind fun _ => (Serves.of_stays fun _ => rfl).bind fun made =>
    container_serves w step made

/-- After an exit code other than zero nothing more is done. -/
theorem Serves.andThen {x y : Run Int} (first : Serves w (fun code => code = 0) x)
    (second : Serves w (fun code => code = 0) y) :
    Serves w (fun code => code = 0) (x >>= fun code => if code ≠ 0 then pure code else y) := by
  intro m
  have before := first m
  rw [bind_apply]
  rcases ran : x m with ⟨s | code, m₁⟩
  · rw [ran] at before
    exact ⟨before.1, fun _ ended => nomatch ended⟩
  rw [ran] at before
  dsimp only
  by_cases zero : code = 0
  · have served := before.2 code rfl zero
    obtain ⟨breaks, serves⟩ := second m₁
    rw [if_neg (not_not.mpr zero)]
    exact ⟨served.trans_breaks breaks, fun b ended good => trans_of _ served (serves b ended good)⟩
  · rw [if_pos zero]
    refine ⟨before.1, fun _ ended good => ?_⟩
    cases ended
    exact absurd good zero

theorem clone_apply (w : World) (c : Clone) (m : Machine) :
    ∃ outcome, clone w c m = (outcome, m.emit (.cloned c)) ∧
      (outcome = .ok () → Event.fails w (.cloned c) = false) := by
  unfold clone
  cases answer : w.clone c with
  | ok _ => exact ⟨_, rfl, fun _ => by simp [Event.fails, answer]⟩
  | error fault =>
    cases fault with
    | failed message => exact ⟨_, rfl, by simp⟩
    | missing program => exact ⟨_, rfl, by simp⟩

/-- A clone that is refused is the failure itself, so nothing but the request is noted. -/
theorem clone_serves (w : World) (c : Clone) : Serves w (fun _ => True) (clone w c) := by
  intro m
  have rests : Rests m (m.emit (.cloned c)) := ⟨rfl, [.cloned c], rfl, rfl⟩
  obtain ⟨outcome, ran, well⟩ := clone_apply w c m
  rw [ran]
  refine ⟨(refl_of (Machine.Serves w) m).breaks.trans_rests rests, fun _ ended _ => ?_⟩
  exact rests.serves (.emit (well ended) m)

theorem workRules_serves (w : World) :
    WorkRules w (fun _ => Serves w fun _ => True) (Serves w fun code => code = 0) where
  exits _ := .of_stays fun _ => rfl
  fails _ := .of_stays fun _ => rfl
  stays := .of_stays
  cloned := clone_serves w
  bind := .bind
  prepared step spec _ := prepared_serves w step spec
  andThen := .andThen

theorem work_serves (w : World) (step : Step) (kind : StepKind) :
    Serves w (fun code => code = 0) (work w step kind) :=
  (workRules_serves w).work step kind

end Work

section Sequel

variable {s : Step}

theorem still_collect (m : Machine) : Still m (collect m).2 := by
  unfold collect
  split <;> exact ⟨rfl, rfl⟩

theorem rests_deplore (s : Step) (f : Failure) (m : Machine) : Rests m (m.deplore s f) :=
  ⟨rfl, [.stepFailed s.displayName f], rfl, rfl⟩

theorem events_deliver (w : World) (s : Step) (values : Channel.Collected) (m : Machine) :
    ∃ es, (m.deliver s values).events = m.events ++ es ∧
      ∀ e ∈ es, e.fails w = false ∧ e.scope ≠ 0 := by
  refine ⟨_, List.append_assoc _ _ _, fun e found => ?_⟩
  rcases List.mem_append.mp found with set | put
  · obtain ⟨x, -, rfl⟩ := List.mem_map.mp set
    exact ⟨rfl, Nat.one_ne_zero⟩
  · split at put
    · obtain ⟨x, -, rfl⟩ := List.mem_map.mp put
      exact ⟨rfl, Nat.one_ne_zero⟩
    · simp at put

theorem rests_deliver (w : World) (s : Step) (values : Channel.Collected) (m : Machine) :
    Rests m (m.deliver s values) := by
  obtain ⟨es, events, told⟩ := events_deliver w s values m
  exact ⟨rfl, es, events, Event.calls_eq_nil fun e found => (told e found).2⟩

theorem serves_deliver (s : Step) (values : Channel.Collected) (m : Machine) :
    Machine.Serves w m (m.deliver s values) := by
  obtain ⟨es, events, told⟩ := events_deliver w s values m
  exact (rests_deliver w s values m).serves ⟨es, events, fun e found => (told e found).1⟩

/-- What a step leaves that does not end well: of its work only the last container may have gone wrong,
and no calls come after it. -/
theorem breaks_of_step {reason : Stop} (ended : step w s m = (.error reason, m')) :
    Machine.Breaks w m m' := by
  have begun : Machine.Serves w m (m.begin_ s) := Still.serves ⟨rfl, rfl⟩
  obtain ⟨m₁, broken, rfl | ⟨f, rfl⟩⟩ := of_step_eq_error (P := fun m' => Machine.Breaks w m m')
    begun.breaks (fun kind => begun.trans_breaks (work_serves w s kind (m.begin_ s)).1)
    (fun m₁ broken => broken.trans_rests (still_collect m₁).rests) ended
  · exact broken
  · exact broken.trans_rests (rests_deplore s f m₁)

end Sequel

end Run

namespace Visit

open Machine (Quiet Rests Still)

variable {w : World} {v : Visit} {m : Machine}

theorem serves_arrival (w : World) (v : Visit) : Machine.Serves w v.start v.arrival :=
  Rests.serves ⟨rfl, [v.mark], rfl, rfl⟩ (.emit rfl _)

/-- In a step that ends well all containers went well. -/
theorem serves (ended : v.result w = (.ok (), m)) : Machine.Serves w v.start m := by
  have arrived := v.serves_arrival w
  have comes := v.comes w
  rw [ended] at comes
  cases comes with
  | skipped refused =>
    have skips : Machine.Serves w v.arrival (v.arrival.passOver v.step) :=
      Rests.serves ⟨rfl, [.stepSkipped], rfl, rfl⟩ ⟨[.stepSkipped], rfl, by simp [Event.fails]⟩
    exact trans_of _ arrived skips
  | done admitted kind values m₁ m₂ works worked collected =>
    have begun : Machine.Serves w v.arrival (v.arrival.begin_ v.step) := Still.serves ⟨rfl, rfl⟩
    have served := (Run.work_serves w v.step kind (v.arrival.begin_ v.step)).2 0
    rw [worked] at served
    have taken := Run.still_collect m₁
    rw [collected] at taken
    have noted : Machine.Serves w (m₂.deliver v.step values)
        ((m₂.deliver v.step values).emit (.stepSucceeded v.step.displayName)) :=
      Rests.serves ⟨rfl, [.stepSucceeded v.step.displayName], rfl, rfl⟩ (.emit rfl _)
    calc Machine.Serves w v.start v.arrival := arrived
      Machine.Serves w _ (v.arrival.begin_ v.step) := begun
      Machine.Serves w _ m₁ := served rfl rfl
      Machine.Serves w _ m₂ := taken.serves
      Machine.Serves w _ (m₂.deliver v.step values) := Run.serves_deliver v.step values m₂
      Machine.Serves w _ _ := noted

/-- In a step at most the last container went wrong, and nothing is called after another failure. -/
theorem breaks (w : World) (v : Visit) : Machine.Breaks w v.start (v.result w).2 := by
  rcases ended : v.result w with ⟨reason | _, m⟩
  · have comes := v.comes w
    rw [ended] at comes
    cases comes with
    | unjudged fault judged => exact (v.serves_arrival w).breaks
    | failed admitted reason m failed =>
      exact (v.serves_arrival w).trans_breaks (Run.breaks_of_step failed)
  · exact (serves ended).breaks

end Visit

namespace Machine.Around

variable {w : World} {m m' : Machine}

theorem rests (around : Around m m') : Rests m m' := by
  obtain ⟨es, events, outer⟩ := around.events
  refine ⟨by rw [around.state], es, events, Event.calls_eq_nil fun e found => ?_⟩
  simp [outer e found]

theorem serves (around : Around m m') : Serves w m m' := by
  obtain ⟨es, events, outer⟩ := around.events
  refine around.rests.serves ⟨es, events, fun e found => ?_⟩
  have scope := outer e found
  cases e with
  | stepFailed label f => simp [Event.scope] at scope
  | cloned c => simp [Event.scope] at scope
  | _ => rfl

end Machine.Around

namespace Run

variable {w : World} {declared : Bindings Job} {plans : List JobPlan}

/-- From the start of a run, all containers went well as long as all steps did, and in the end at most
the last one went wrong. -/
theorem handsOn_serves (w : World) (m₀ : Machine) :
    HandsOn w (fun _ m => Machine.Serves w m₀ m) (fun _ m => Machine.Breaks w m₀ m) where
  around around served := trans_of _ served around.serves
  passed served ended := trans_of _ served (Visit.serves ended)
  stopped {_ v _ _} served ended := by
    have breaks := v.breaks w
    rw [ended] at breaks
    exact served.trans_breaks breaks
  aroundFinal around broken := broken.trans_rests around.rests
  final_of_going served := served.breaks

theorem jobs_serves (w : World) (declared : Bindings Job) (plans : List JobPlan) (m : Machine) :
    Handed (fun _ m' => Machine.Serves w m m') (fun _ m' => Machine.Breaks w m m') []
      (visits w declared plans m) (jobs w declared plans m) :=
  (handsOn_serves w m).jobs (refl_of _ m)

theorem live_of_jobs (m : Machine) (empty : m.state.live = ∅) :
    (jobs w declared plans m).2.state.live = ∅ :=
  (jobs_serves w declared plans m).final.live empty

theorem lives_of_jobs (w : World) (declared : Bindings Job) (plans : List JobPlan) (m : Machine) :
    ReflTransGen w.engine.Lives m.calls (jobs w declared plans m).2.calls := by
  obtain ⟨served, chain, last⟩ := (jobs_serves w declared plans m).final.calls
  exact Engine.lives_of_serves chain last

end Run

section Execution

variable (w : World) (workingDir : String) (workflow : Workflow) (p : Plan) (c : Context)

theorem calls_of_execute (directory : String) :
    Event.calls (workflow.execute w workingDir (.ok directory) p c).events =
      (Run.jobs w workflow.jobs p.jobs (.initial workingDir directory c)).2.calls := by
  rw [events_of_execute, Event.calls_append]
  exact List.append_nil _

theorem lives_of_execute (scratch : Except FileFault String) :
    ReflTransGen w.engine.Lives []
      (Event.calls (workflow.execute w workingDir scratch p c).events) := by
  cases scratch with
  | error fault => exact .refl
  | ok directory =>
    rw [calls_of_execute]
    exact Run.lives_of_jobs w workflow.jobs p.jobs (.initial workingDir directory c)

theorem count_closed_of_execute (directory : String) :
    (workflow.execute w workingDir (.ok directory) p c).events.count .engineClosed = 1 := by
  obtain ⟨es, events, inner⟩ := Run.logs_jobs w workflow.jobs p.jobs (.initial workingDir directory c)
  have none : Event.engineClosed ∉ es := fun found => absurd (inner _ found) (by decide)
  rw [events_of_execute, List.count_append, events, List.count_append, List.count_eq_zero_of_not_mem none]
  rfl

/-- Whatever the engine refuses and containers do, the calls of a run are lives of containers one after
another: the containers that are stopped, and those that are removed, are those that were created, and
a container is disposed of right after it is created. Once the files of the channel are there, a run
always gives them up, leaves no container and closes the engine, once and last. -/
theorem Workflow.execute_disposes (scratch : Except FileFault String) :
    let o := workflow.execute w workingDir scratch p c
    ReflTransGen w.engine.Lives [] (Event.calls o.events) ∧
    w.engine.created [] (Event.calls o.events) =
      (Event.calls o.events).filterMap Engine.Call.stopped? ∧
    w.engine.created [] (Event.calls o.events) =
      (Event.calls o.events).filterMap Engine.Call.removed? ∧
    (∀ before spec after, Event.calls o.events = before ++ .create spec :: after →
      w.engine.refuses before (.create spec) = none →
      ∃ used rest, used ∈ Engine.uses (w.engine.identifier (before ++ [.create spec])) ∧
        after =
          Engine.disposal (w.engine.identifier (before ++ [.create spec])) used ++ rest) ∧
    ∀ directory, scratch = .ok directory →
      (∃ s, o.state = some s ∧ s.channel = none ∧ s.live = ∅) ∧
      o.events.getLast? = some .engineClosed ∧ o.events.count .engineClosed = 1 := by
  have lives := lives_of_execute w workingDir workflow p c scratch
  obtain ⟨stops, removes⟩ := Engine.balance_of_lives lives
  refine ⟨lives, stops, removes, fun _ _ _ => Engine.disposal_of_lives lives, ?_⟩
  rintro directory rfl
  refine ⟨?_, ?_, count_closed_of_execute w workingDir workflow p c directory⟩
  · rw [execute_of_directory]
    exact ⟨_, rfl, rfl, Run.live_of_jobs _ rfl⟩
  · rw [events_of_execute]
    exact List.getLast?_concat

end Execution

end Drydock
