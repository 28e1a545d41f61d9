import Drydock.Proofs.Run.Agreement
import Drydock.Proofs.Run.Stopping
import Mathlib

set_option autoImplicit false
set_option relaxedAutoImplicit false

/-!
What a run records of the failure that ends it. Main statement: a run that fails at a step records its
job as failed or cancelled; and it records the step as failed and shows that, unless the step has no
work at all.
-/

namespace Drydock

/-- The failure of a step is on record: its outcome is known, its name is recorded with it, and it is
noted last but for the end of the job and of the run. -/
structure Outcome.Blames (o : Outcome) (v : Visit) (f : Failure) : Prop where
  outcome : o.state.bind RunState.step = some ⟨v.step, outcomeFailure, ∅⟩
  record : v.step.id ≠ "" → o.context.steps.get? v.step.id = some ⟨outcomeFailure, ∅⟩
  noted : ∃ before, o.events =
    before ++ [.stepFailed v.step.displayName f, .jobFailed v.job, .engineClosed]
  shown : ∀ debug, "STEP FAILED: " ++ v.step.displayName ∈ Event.console debug o.events

/-- The failure of a step is not on record: its outcome is left open, no name is recorded with it, and
what is noted after the step is announced is only the end of the job and of the run. -/
structure Outcome.Overlooks (o : Outcome) (v : Visit) : Prop where
  outcome : o.state.bind RunState.step = some ⟨v.step, "", ∅⟩
  records : o.context.steps = v.start.context.steps
  noted : o.events = v.start.events ++ [v.mark, .jobFailed v.job, .engineClosed]
  silent : ∀ label f, .stepFailed label f ∉ o.events

theorem Event.mem_console {e : Event} {es : List Event} {debug : Bool} {line : String}
    (member : e ∈ es) (shown : line ∈ e.lines debug) : line ∈ Event.console debug es :=
  List.mem_flatMap.mpr ⟨e, member, shown⟩

theorem Event.mem_lines_stepFailed (debug : Bool) (label : String) (f : Failure) :
    "STEP FAILED: " ++ label ∈ Event.lines debug (.stepFailed label f) :=
  List.mem_append_left _ (List.mem_append_left _ (List.mem_append_left _ List.mem_cons_self))

section Execution

variable {w : World} {workingDir directory : String} {workflow : Workflow} {p : Plan} {c : Context}
  {m₁ : Machine} {before : List Visit} {v : Visit} {f : Failure} {outcome : Except Stop (List JobRun)}

theorem blames_of_failed {m : Machine}
    (ran : Run.jobs w workflow.jobs p.jobs (.initial workingDir directory c) =
      (outcome, (m.deplore v.step f).abandon v.job (f.inStep v.step.displayName)))
    (worked : Machine.Works (v.arrival.begin_ v.step) m) :
    (workflow.execute w workingDir (.ok directory) p c).Blames v f := by
  rw [execute_of_directory, ran]
  have begun : m.state.step = some ⟨v.step, "", ∅⟩ := by
    rw [worked.state]
    rfl
  refine ⟨?_, fun named => ?_, ⟨m.events, ?_⟩, fun debug => ?_⟩
  · change m.state.step.map _ = _
    rw [begun]
    rfl
  · change (m.deplore v.step f).context.steps.get? v.step.id = _
    rw [Machine.deplore, if_pos named, Context.recordStep, Bindings.get?_insert, if_pos rfl]
  · simp [Machine.deplore, Machine.abandon]
  · refine Event.mem_console ?_ (Event.mem_lines_stepFailed debug v.step.displayName f)
    simp [Machine.deplore, Machine.abandon]

theorem overlooks_of_idle
    (ran : Run.jobs w workflow.jobs p.jobs (.initial workingDir directory c) =
      (outcome, (v.arrival.begin_ v.step).abandon v.job f))
    (quiet : Machine.Quiet w (.initial workingDir directory c) v.start) :
    (workflow.execute w workingDir (.ok directory) p c).Overlooks v := by
  rw [execute_of_directory, ran]
  obtain ⟨es, events, well⟩ := quiet
  have noted : ((v.arrival.begin_ v.step).abandon v.job f).events ++ [.engineClosed] =
      v.start.events ++ [v.mark, .jobFailed v.job, .engineClosed] := by
    change (v.start.events ++ [v.mark]) ++ [.jobFailed v.job] ++ [.engineClosed] = _
    simp
  refine ⟨rfl, rfl, noted, fun label g told => ?_⟩
  have told : .stepFailed label g ∈
      ((v.arrival.begin_ v.step).abandon v.job f).events ++ [.engineClosed] := told
  rw [noted, events] at told
  have member : .stepFailed label g ∈ es := by simpa [Visit.mark, Machine.initial] using told
  cases well _ member

end Execution

/-- Whatever containers do, a run that fails has found no place for its files, or comes to a job that is
not declared, or fails at the last step that it reaches. Then the job of that step is recorded as
cancelled if that is the failure, and else as failed. The failure of the step is on record if the step
has work to do, and it is not if the step has none. -/
theorem Workflow.execute_records_failure {w : World} {workingDir : String}
    {scratch : Except FileFault String} {workflow : Workflow} {p : Plan} {c : Context}
    {report : Report} (ended : (workflow.execute w workingDir scratch p c).ending = .failed report) :
    let o := workflow.execute w workingDir scratch p c
    (∃ fault, scratch = .error fault ∧ report = .noFiles fault.message) ∨
    (∃ u ∈ p.jobs, u.wouldRun = true ∧ workflow.jobs.get? u.name = none ∧
      report = .ofFailure (Run.missingJob u.name)) ∨
    ∃ before v f, workflow.visits w workingDir scratch p c = before ++ [v] ∧
      report = .ofFailure (f.inJob v.job) ∧
      o.context.jobs.get? v.job =
        some ⟨if f.kind = .cancelled then "cancelled" else "failure", ∅⟩ ∧
      (v.step.work? ≠ none → ∃ g, f = g.inStep v.step.displayName ∧ o.Blames v g) ∧
      (v.step.work? = none → f = v.step.idleFailure ∧ o.Overlooks v) := by
  cases scratch with
  | error fault =>
    cases ended
    exact .inl ⟨fault, rfl, rfl⟩
  | ok directory =>
    refine .inr ?_
    obtain ⟨f', m', ran, rfl⟩ := failed_of_execute ended
    rcases Run.stop_of_jobs ran with ⟨u, member, would, missing, same⟩ |
      ⟨before, v, j, r, m₁, visits, -, result, closed⟩
    · cases same
      exact .inl ⟨u, member, would, missing, rfl⟩
    rcases Run.closeJob_of_error v.job j r m₁ with ⟨f, rfl, same⟩ | ⟨other, same⟩
    · cases same.symm.trans closed
      refine .inr ⟨before, v, f, visits, rfl, ?_, ?_⟩
      · rw [context_of_execute, ran]
        refine (Bindings.get?_insert _ _ _ _).trans ((if_pos rfl).trans ?_)
        unfold Run.endOf
        split <;> rfl
      have quiet := ((Run.jobs_serves w workflow.jobs p.jobs
        (.initial workingDir directory c)).at_ before v [] visits).quiet
      -- The step has no work, or it is recorded as failed; no other way to stop is a failure.
      cases Visit.stops result with
      | idle _ works =>
        exact ⟨fun some => absurd works some, fun _ => ⟨rfl, overlooks_of_idle ran quiet⟩⟩
      | failed _ kind g m works worked =>
        refine ⟨fun _ => ⟨g, rfl, blames_of_failed ran worked⟩, fun none => ?_⟩
        rw [none] at works
        cases works
      | escaped _ kind _ _ works worked escapes => exact absurd escapes id
    · cases same.symm.trans closed
      exact absurd rfl (other f')

section Sample

/-- A job with a step that has neither a command nor an action. -/
def Workflow.idling : Workflow where
  name := "idling"
  on := .text "push"
  env := ∅
  jobs := .ofList [
    ("build", { (default : Job) with
      steps := [{ (default : Step) with id := "x", name := "nothing here" }] })]

/-- The run of the plan in an idle world. -/
def Plan.runIdling (p : Plan) : Outcome :=
  Workflow.idling.execute .idle "/work" (.ok "/files") p .sample

/-- The report of a run that failed. -/
def RunEnd.report? : RunEnd → Option Report
  | .failed report => some report
  | _ => none

set_option maxRecDepth 10000 in
theorem run_idling :
    (Workflow.idling.plan .sample).toOption.map (fun p =>
        (p.runIdling.ending.report?,
          (p.runIdling.state.bind RunState.step).map fun r => (r.step.id, r.outcome),
          p.runIdling.context.steps.get? "x",
          p.runIdling.events)) =
      some (some ⟨"execution", "build", some "nothing here",
          "no executor found for step: nothing here", []⟩,
        some ("x", ""), none,
        [.jobStarted "build", .stepReached 1 1 "nothing here", .jobFailed "build",
          .engineClosed]) := by
  cbv

theorem RunEnd.eq_of_report? {e : RunEnd} {report : Report} (told : e.report? = some report) :
    e = .failed report := by
  cases e with
  | failed report' => exact congrArg _ (Option.some.inj told)
  | finished done => cases told
  | stopped reason => cases told

theorem exists_run_idling :
    ∃ p, Workflow.idling.plan .sample = .ok p ∧
      p.runIdling.ending = .failed ⟨"execution", "build", some "nothing here",
          "no executor found for step: nothing here", []⟩ ∧
      (p.runIdling.state.bind RunState.step).map (fun r => (r.step.id, r.outcome)) = some ("x", "") ∧
      p.runIdling.context.steps.get? "x" = none ∧
      p.runIdling.events = [.jobStarted "build", .stepReached 1 1 "nothing here", .jobFailed "build",
        .engineClosed] := by
  obtain ⟨p, planned, computed⟩ := exists_of_map_toOption run_idling
  simp only [Prod.mk.injEq] at computed
  obtain ⟨report, outcome, record, events⟩ := computed
  exact ⟨p, planned, RunEnd.eq_of_report? report, outcome, record, events⟩

/-- The run fails because its step has neither a command nor an action, but the outcome of the step is
left open, nothing is recorded under its name, and no line shows that it failed. -/
theorem Workflow.execute_overlooks_idle :
    ∃ p, Workflow.idling.plan .sample = .ok p ∧
      p.runIdling.ending = .failed ⟨"execution", "build", some "nothing here",
          "no executor found for step: nothing here", []⟩ ∧
      ∃ r, p.runIdling.state.bind RunState.step = some r ∧ r.step.id = "x" ∧ r.outcome ≠ "failure" ∧
        p.runIdling.context.steps.get? "x" ≠ some ⟨"failure", ∅⟩ ∧
        ∀ debug, "STEP FAILED: nothing here" ∉ Event.console debug p.runIdling.events := by
  obtain ⟨p, planned, failed, outcome, record, events⟩ := exists_run_idling
  obtain ⟨r, left, same⟩ := Option.map_eq_some_iff.mp outcome
  obtain ⟨named, open_⟩ := Prod.mk.inj same
  refine ⟨p, planned, failed, r, left, named, by simp [open_], by simp [record], fun debug shown => ?_⟩
  rw [events] at shown
  obtain ⟨e, member, line⟩ := List.mem_flatMap.mp shown
  simp only [List.mem_cons, List.not_mem_nil, or_false] at member
  rcases member with rfl | rfl | rfl | rfl
  · exact absurd (List.mem_singleton.mp line) (by decide)
  · exact absurd (List.mem_singleton.mp line) (by decide)
  · -- The line about the job has a duration at its end, so only its beginning is compared.
    have begins := congrArg (fun s => s.toList.head?) (List.mem_singleton.mp line)
    simp [toString] at begins
  · cases line

theorem Workflow.execute_records_failure_idling :
    ∃ p report, Workflow.idling.plan .sample = .ok p ∧ p.runIdling.ending = .failed report ∧
      ∃ before v, ∃ f : Failure,
        Workflow.idling.visits .idle "/work" (.ok "/files") p .sample = before ++ [v] ∧
        report = .ofFailure (f.inJob v.job) ∧
        p.runIdling.context.jobs.get? v.job =
          some ⟨if f.kind = .cancelled then "cancelled" else "failure", ∅⟩ ∧
        v.step.work? = none ∧ p.runIdling.Overlooks v := by
  obtain ⟨p, planned, failed, outcome, record, events⟩ := exists_run_idling
  refine ⟨p, _, planned, failed, ?_⟩
  have recorded := Workflow.execute_records_failure failed
  rcases recorded with ⟨fault, none, -⟩ | ⟨u, -, -, -, other⟩ |
    ⟨before, v, f, visits, told, job, blamed, idle⟩
  · cases none
  · simp [Run.missingJob, Report.ofFailure] at other
  · refine ⟨before, v, f, visits, told, job, ?_⟩
    cases works : v.step.work? with
    | none => exact ⟨rfl, (idle works).2⟩
    | some kind =>
      obtain ⟨g, -, blames⟩ := blamed (by simp [works])
      obtain ⟨es, noted⟩ := blames.noted
      have failed : .stepFailed v.step.displayName g ∈ p.runIdling.events := by
        rw [Plan.runIdling, noted]
        simp
      rw [events] at failed
      simp at failed

end Sample

end Drydock
