import Drydock.Proofs.Run.Reach

set_option autoImplicit false
set_option relaxedAutoImplicit false

/-!
In which order a run comes to steps. Main statements: the steps that are reached are the first of those
that the jobs to be done declare, all of them if the run finishes, and each is announced when it is
reached.
-/

namespace Drydock

/-- A step as a run is to come to it: the job, and the step as it is declared. -/
def Visit.place (v : Visit) : String × Step :=
  (v.job, v.step)

/-- The announcement of a step. -/
def Event.isReached : Event → Bool
  | .stepReached _ _ _ => true
  | _ => false

namespace Run

variable {α β : Type} {w : World} {declared : Bindings Job} {m : Machine}

/-- The steps that a job declares, in order. -/
def stepsOf (declared : Bindings Job) (name : String) : List (String × Step) :=
  ((declared.get? name).map Job.steps).getD [] |>.map fun s => (name, s)

/-- The steps of the planned jobs that would run, in order. -/
def sequence (declared : Bindings Job) (plans : List JobPlan) : List (String × Step) :=
  (plans.filter JobPlan.wouldRun).flatMap fun p => stepsOf declared p.name

/-- The steps reached are the first of those planned, and all of them if all ends well. -/
structure Covers (planned : List (String × Step)) (reached : List Visit)
    (end_ : Except Stop α × Machine) : Prop where
  begins : reached.map Visit.place <+: planned
  whole : ∀ a m, end_ = (.ok a, m) → reached.map Visit.place = planned

namespace Covers

theorem nil (end_ : Except Stop α × Machine) : Covers [] [] end_ :=
  ⟨List.nil_prefix, fun _ _ _ => rfl⟩

theorem bind {x : Run α} {f : α → Run β} {rest : Machine → List Visit} {reached : List Visit}
    {planned later : List (String × Step)} (first : Covers planned reached (x m))
    (second : ∀ a m', x m = (.ok a, m') → Covers later (rest m') (f a m')) :
    Covers (planned ++ later) (reached ++ onward rest (x m)) ((x >>= f) m) := by
  rw [bind_apply]
  rcases ran : x m with ⟨s | a, m'⟩
  · rw [ran] at first
    refine ⟨?_, fun _ _ ended => nomatch ended⟩
    rw [onward, List.append_nil]
    exact first.begins.trans (List.prefix_append _ _)
  · have next := second a m' ran
    have whole := first.whole a m' ran
    refine ⟨?_, fun b m₂ ended => ?_⟩
    · rw [List.map_append, whole, List.prefix_append_right_inj]
      exact next.begins
    · rw [List.map_append, whole, onward, next.whole b m₂ ended]

theorem map {x : Run α} {f : α → β} {reached : List Visit} {planned : List (String × Step)}
    (covers : Covers planned reached (x m)) :
    Covers planned reached ((x >>= fun a => (pure (f a) : Run β)) m) := by
  refine ⟨covers.begins, fun b m₂ ended => ?_⟩
  obtain ⟨a, m₁, ran, -⟩ := bind_eq_ok.mp ended
  exact covers.whole a m₁ ran

theorem result (w : World) (v : Visit) : Covers [v.place] [v] (v.result w) :=
  ⟨List.prefix_rfl, fun _ _ _ => rfl⟩

theorem steps (name : String) (total index : Nat) (steps : List Step) (m : Machine) :
    Covers (steps.map fun s => (name, s)) (visitsOfSteps w name total index steps m)
      (Run.steps w total index steps m) := by
  induction steps generalizing index m with
  | nil => exact .nil _
  | cons s r ih => exact (result w ⟨name, index, total, s, m⟩).bind fun _ m' _ => ih (index + 1) m'

theorem job (name : String) (m : Machine) :
    Covers (stepsOf declared name) (visitsOfJob w declared name m) (Run.job w declared name m) := by
  unfold stepsOf visitsOfJob
  cases found : declared.get? name with
  | none => exact .nil _
  | some j =>
    have inner := steps (w := w) name j.steps.length 1 j.steps (openJob name j m).2
    refine ⟨inner.begins, fun done m' ended => ?_⟩
    rw [job_of_found found] at ended
    obtain ⟨outcome, m₁, tried, closed⟩ := bind_eq_ok.mp ended
    obtain ⟨same, rfl⟩ := Prod.mk.inj tried
    rcases outcome with s | a
    · cases s <;> cases closed
    · exact inner.whole a _ (Prod.ext (Except.ok.inj same) rfl)

theorem jobs (plans : List JobPlan) (m : Machine) :
    Covers (sequence declared plans) (visits w declared plans m) (Run.jobs w declared plans m) := by
  induction plans generalizing m with
  | nil => exact .nil _
  | cons p r ih =>
    unfold visits sequence
    cases runs : p.wouldRun with
    | true =>
      rw [jobs_cons_of_run runs, if_pos rfl, List.filter_cons_of_pos runs, List.flatMap_cons]
      exact (job p.name m).bind fun _ m' _ => (ih m').map
    | false =>
      rw [jobs_cons_of_skip runs, if_neg Bool.false_ne_true,
        List.filter_cons_of_neg (Bool.eq_false_iff.mp runs)]
      exact ih (skipJob p.name m).2

end Covers

theorem filter_isReached_of_inner {es : List Event}
    (inner : ∀ e ∈ es, e = .stepSkipped ∨ e.scope ≠ 2) : es.filter Event.isReached = [] := by
  refine List.filter_eq_nil_iff.mpr fun e member => ?_
  rcases inner e member with rfl | other
  · simp [Event.isReached]
  · cases e with
    | stepReached index total label => exact absurd rfl other
    | _ => simp [Event.isReached]

/-- The steps that are announced are those that are reached, and what is noted stays. -/
structure Traced (w : World) (m₀ : Machine) (reached : List Visit) (m : Machine) : Prop where
  marks : m.events.filter Event.isReached =
    m₀.events.filter Event.isReached ++ reached.map Visit.mark
  stays : ∀ v ∈ reached, (v.result w).2.events <+: m.events

namespace Traced

variable {m₀ m' : Machine} {reached : List Visit} {v : Visit}

theorem around (traced : Traced w m₀ reached m) (around : Machine.Around m m') :
    Traced w m₀ reached m' := by
  obtain ⟨es, events, outer⟩ := around.events
  have none : es.filter Event.isReached = [] :=
    filter_isReached_of_inner fun e member => .inr (by simp [outer e member])
  refine ⟨?_, fun v member => ?_⟩
  · rw [events, List.filter_append, none, List.append_nil, traced.marks]
  · rw [events]
    exact (traced.stays v member).trans (List.prefix_append _ _)

theorem result (traced : Traced w m₀ reached v.start) :
    Traced w m₀ (reached ++ [v]) (v.result w).2 := by
  obtain ⟨own, events, inner⟩ := v.events_result w
  have none : own.filter Event.isReached = [] := filter_isReached_of_inner fun e member =>
    (inner e member).imp_right fun small => by omega
  have announced : Event.isReached v.mark = true := rfl
  refine ⟨?_, fun u member => ?_⟩
  · rw [events, List.filter_append, List.filter_cons_of_pos announced, none, traced.marks]
    simp
  · rcases List.mem_append.mp member with earlier | last
    · rw [events]
      exact (traced.stays u earlier).trans (List.prefix_append _ _)
    · obtain rfl := List.mem_singleton.mp last
      exact List.prefix_rfl

end Traced

theorem handsOn_traced (w : World) (m₀ : Machine) : HandsOn w (Traced w m₀) (Traced w m₀) where
  around around traced := traced.around around
  passed traced ended := by simpa [ended] using traced.result
  stopped traced ended := by simpa [ended] using traced.result
  aroundFinal around traced := traced.around around
  final_of_going traced := traced

theorem jobs_traced (w : World) (declared : Bindings Job) (plans : List JobPlan) (m : Machine) :
    Handed (Traced w m) (Traced w m) [] (visits w declared plans m) (jobs w declared plans m) :=
  (handsOn_traced w m).jobs ⟨(List.append_nil _).symm, by simp⟩

end Run

section Execution

variable (w : World) (workingDir directory : String) (workflow : Workflow) (p : Plan) (c : Context)

theorem begins_of_execute :
    (workflow.visits w workingDir (.ok directory) p c).map Visit.place <+:
      Run.sequence workflow.jobs p.jobs :=
  (Run.Covers.jobs p.jobs (.initial workingDir directory c)).begins

theorem whole_of_execute {done : List JobRun}
    (ended : (workflow.execute w workingDir (.ok directory) p c).ending = .finished done) :
    (workflow.visits w workingDir (.ok directory) p c).map Visit.place =
      Run.sequence workflow.jobs p.jobs := by
  rw [ending_of_execute] at ended
  rcases ran : Run.jobs w workflow.jobs p.jobs (.initial workingDir directory c) with
    ⟨(f | fault | message | fault | fault) | runs, m⟩
  all_goals rw [ran] at ended
  all_goals cases ended
  exact (Run.Covers.jobs p.jobs (.initial workingDir directory c)).whole _ _ ran

theorem marks_of_execute :
    (workflow.execute w workingDir (.ok directory) p c).events.filter Event.isReached =
      (workflow.visits w workingDir (.ok directory) p c).map Visit.mark := by
  have marks := (Run.jobs_traced w workflow.jobs p.jobs (.initial workingDir directory c)).final.marks
  rw [events_of_execute, List.filter_append, marks]
  exact List.append_nil _

theorem stays_of_execute {v : Visit}
    (member : v ∈ workflow.visits w workingDir (.ok directory) p c) :
    (v.result w).2.events <+: (workflow.execute w workingDir (.ok directory) p c).events := by
  have traced := (Run.jobs_traced w workflow.jobs p.jobs (.initial workingDir directory c)).final
  rw [events_of_execute]
  exact (traced.stays v member).trans (List.prefix_append _ _)

end Execution

end Drydock
