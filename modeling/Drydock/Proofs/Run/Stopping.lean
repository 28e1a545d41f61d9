import Drydock.Proofs.Run.Halt
import Drydock.Proofs.Run.Handover

set_option autoImplicit false
set_option relaxedAutoImplicit false

/-!
How a step stops a run, and what it leaves then. Main statements: a run is stopped by the last step
that it reaches; and a step that does not end well leaves the variables and outputs of the run as they
were when it was reached, whatever its containers wrote.
-/

namespace Drydock

open Machine (Works Withholds)

theorem Machine.works_collect (m : Machine) : Works m (Run.collect m).2 := by
  unfold Run.collect
  split <;> exact ⟨rfl, rfl, .refl 0 m⟩

/-- How a step that is reached stops a run: its condition cannot be judged, there is no work, it is
recorded as failed after its work, or its work is stopped by what is told as no failure. -/
inductive Visit.Stops (w : World) (v : Visit) : Stop → Machine → Prop
  | unjudged (fault : PlanFault)
      (judged : judge? v.start.context v.step.condition = .error fault) :
      Stops w v (.unjudged fault) v.arrival
  | idle (admitted : v.start.context.Admits v.step.condition) (works : v.step.work? = none) :
      Stops w v (.failure v.step.idleFailure) (v.arrival.begin_ v.step)
  | failed (admitted : v.start.context.Admits v.step.condition) (kind : StepKind) (f : Failure)
      (m : Machine) (works : v.step.work? = some kind)
      (worked : Works (v.arrival.begin_ v.step) m) :
      Stops w v (.failure (f.inStep v.step.displayName)) (m.deplore v.step f)
  | escaped (admitted : v.start.context.Admits v.step.condition) (kind : StepKind) (reason : Stop)
      (m : Machine) (works : v.step.work? = some kind)
      (worked : Run.work w v.step kind (v.arrival.begin_ v.step) = (.error reason, m))
      (escapes : reason.Escapes) :
      Stops w v reason m

namespace Visit

variable {w : World} {v : Visit} {reason : Stop} {m : Machine}

theorem stops_of_step (admitted : v.start.context.Admits v.step.condition)
    (ended : Run.step w v.step v.arrival = (.error reason, m)) : v.Stops w reason m := by
  cases works : v.step.work? with
  | none =>
    cases (Run.step_of_no_work works w v.arrival).symm.trans ended
    exact .idle admitted works
  | some kind =>
    rw [Run.step_of_work works] at ended
    have worked := Run.keeps_work w v.step kind (v.arrival.begin_ v.step)
    rcases Run.stops_of_finish ended with ⟨f, m₁, before, rfl, rfl⟩ | ⟨same, escapes, rfl⟩
    · refine .failed admitted kind f m₁ works ?_
      rcases before with rfl | rfl
      · exact worked
      · exact trans_of _ worked (Machine.works_collect _)
    · exact .escaped admitted kind reason _ works (Prod.ext same rfl) escapes

theorem stops (ended : v.result w = (.error reason, m)) : v.Stops w reason m := by
  have comes := v.comes w
  rw [ended] at comes
  cases comes with
  | unjudged fault judged => exact .unjudged fault judged
  | failed admitted _ _ failed => exact stops_of_step admitted failed

/-- What stops a step is a failure by then, or what escapes. -/
theorem Stops.escapes (stops : v.Stops w reason m) (other : ∀ f, reason ≠ .failure f) :
    reason.Escapes := by
  cases stops with
  | unjudged fault judged => trivial
  | idle admitted works => exact absurd rfl (other _)
  | failed admitted kind f m works worked => exact absurd rfl (other _)
  | escaped admitted kind reason m works worked escapes => exact escapes

/-- A step that does not end well hands on nothing. -/
theorem withholds (fails : v.succeeds w = false) : Withholds v.start (v.result w).2 := by
  have arrived := v.sameData_arrival.withholds
  rcases ended : v.result w with ⟨reason | _, m⟩
  · have begun := Machine.sameData_begin v.arrival v.step
    cases stops ended with
    | unjudged fault judged => exact arrived
    | idle admitted works => exact trans_of _ arrived begun.withholds
    | failed admitted kind f m works worked =>
      have working := trans_of _ begun worked.sameData
      exact trans_of _ arrived (trans_of _ working.withholds (m.withholds_deplore v.step f))
    | escaped admitted kind reason m works worked escapes =>
      have working := (Run.keeps_work w v.step kind (v.arrival.begin_ v.step)).sameData
      rw [worked] at working
      exact trans_of _ arrived (trans_of _ begun working).withholds
  · have comes := v.comes w
    rw [ended] at comes
    cases comes with
    | skipped refused => exact trans_of _ arrived (v.arrival.withholds_passOver v.step)
    | done admitted kind values m₁ m₂ works worked collected =>
      rw [succeeds_of_done admitted ended] at fails
      cases fails

end Visit

/-- A job is recorded as ended by a failure. -/
def Machine.abandon (m : Machine) (name : String) (f : Failure) : Machine where
  state := { m.state with job := m.state.job.map fun j => { j with status := Run.endOf f } }
  context := m.context.recordJob name (Run.endOf f).text ∅
  events := m.events ++ [.jobFailed name]

namespace Run

section Stopping

variable {w : World} {declared : Bindings Job} {m m' : Machine} {reason : Stop}

/-- The failure of a run that comes to a job that is not declared. -/
def missingJob (name : String) : Failure :=
  ⟨.execution, s!"job {name} not found in workflow", some name, none⟩

/-- What becomes of a job whose steps were stopped. -/
theorem closeJob_of_error (name : String) (j : Job) (reason : Stop) (m : Machine) :
    (∃ f, reason = .failure f ∧
      closeJob name j (.error reason) m = (.error (.failure (f.inJob name)), m.abandon name f)) ∨
    ((∀ f, reason ≠ .failure f) ∧ closeJob name j (.error reason) m = (.error reason, m)) := by
  cases reason with
  | failure f => exact .inl ⟨f, rfl, rfl⟩
  | file fault => exact .inr ⟨by simp, rfl⟩
  | interrupted message => exact .inr ⟨by simp, rfl⟩
  | unjudged fault => exact .inr ⟨by simp, rfl⟩
  | unread fault => exact .inr ⟨by simp, rfl⟩

/-- A run is stopped by the last step that it reaches, unless a job is not declared. -/
theorem stop_of_jobs {plans : List JobPlan}
    (ended : jobs w declared plans m = (.error reason, m')) :
    (∃ u ∈ plans, u.wouldRun = true ∧ declared.get? u.name = none ∧
      reason = .failure (missingJob u.name)) ∨
    ∃ before v j r m₁, visits w declared plans m = before ++ [v] ∧ declared.get? v.job = some j ∧
      v.result w = (.error r, m₁) ∧ closeJob v.job j (.error r) m₁ = (.error reason, m') := by
  -- The jobs before the one that stops the run are done, so its steps are the last ones reached.
  obtain ⟨earlier, u, later, done, start, split, would, passed, last, before, visits⟩ :=
    last_of_jobs ended
  have member : u ∈ plans := split ▸ List.mem_append_right _ List.mem_cons_self
  cases found : declared.get? u.name with
  | none =>
    unfold job at last
    rw [found] at last
    cases last
    exact .inl ⟨u, member, would, found, rfl⟩
  | some j =>
    obtain ⟨inner, v, r, m₁, steps, same, result, closed⟩ := stop_of_job found last
    rw [← same] at found closed
    refine .inr ⟨before ++ inner, v, j, r, m₁, ?_, found, result, closed⟩
    rw [visits, steps, List.append_assoc]

end Stopping

/-- Since the last step that was reached has ended, nothing is handed on. -/
def KeepsLast (w : World) (reached : List Visit) (m : Machine) : Prop :=
  ∀ v, reached.getLast? = some v → Withholds (v.result w).2 m

theorem handsOn_keepsLast (w : World) : HandsOn w (KeepsLast w) (KeepsLast w) where
  around around kept v last := trans_of _ (kept v last) around.withholds
  passed {_ v _} _ ended u last := by
    obtain rfl : v = u := by simpa using last
    rw [ended]
    exact refl_of Withholds _
  stopped {_ v _ _} _ ended u last := by
    obtain rfl : v = u := by simpa using last
    rw [ended]
    exact refl_of Withholds _
  aroundFinal around kept v last := trans_of _ (kept v last) around.withholds
  final_of_going kept := kept

theorem jobs_keepsLast (w : World) (declared : Bindings Job) (plans : List JobPlan) (m : Machine) :
    Handed (KeepsLast w) (KeepsLast w) [] (visits w declared plans m) (jobs w declared plans m) :=
  (handsOn_keepsLast w).jobs fun _ none => by simp at none

end Run

/-- Whatever its containers have written and at whatever point it goes wrong, a step that does not end
well, and one that is passed over, leaves the variables and outputs that the run keeps and the
variables that conditions read as they were when it was reached; the next step finds them so, and so
does the end of the run. -/
theorem Workflow.execute_withholds (w : World) (workingDir : String)
    (scratch : Except FileFault String) (workflow : Workflow) (p : Plan) (c : Context) :
    (∀ v ∈ workflow.visits w workingDir scratch p c, v.succeeds w = false →
      Withholds v.start (v.result w).2) ∧
    (∀ before v next after,
      workflow.visits w workingDir scratch p c = before ++ v :: next :: after →
        v.succeeds w = false → Withholds v.start next.start) ∧
    ∀ before v s, workflow.visits w workingDir scratch p c = before ++ [v] →
      v.succeeds w = false → (workflow.execute w workingDir scratch p c).state = some s →
        s.env = v.start.state.env ∧ s.outputs = v.start.state.outputs ∧
          (workflow.execute w workingDir scratch p c).context.env = v.start.context.env := by
  cases scratch with
  | error fault =>
    have unvisited : workflow.visits w workingDir (.error fault) p c = [] := rfl
    simp [unvisited]
  | ok directory =>
    have handed := Run.jobs_keepsLast w workflow.jobs p.jobs (.initial workingDir directory c)
    refine ⟨fun v _ fails => Visit.withholds fails, ?_, ?_⟩
    · intro before v next after split fails
      have onward : Run.KeepsLast w (before ++ [v]) next.start :=
        handed.at_ (before ++ [v]) next after (split.trans (by simp))
      exact trans_of _ (Visit.withholds fails) (onward v (by simp))
    · intro before v s split fails ended
      have own := Visit.withholds fails
      have final := handed.final
      have last : (workflow.visits w workingDir (.ok directory) p c).getLast? = some v := by
        rw [split, List.getLast?_concat]
      have kept := trans_of _ own (final v last)
      rw [execute_of_directory] at ended ⊢
      cases ended
      exact ⟨kept.env, kept.outputs, kept.context⟩

end Drydock
