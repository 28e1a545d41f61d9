import Drydock.Proofs.Run.Record

set_option autoImplicit false
set_option relaxedAutoImplicit false

/-!
A run agrees with the plan it follows. Main statement: when a job starts, all that it needs has been
done in the same run and is recorded as a success, and when a run finishes, the jobs that were done
are those that would run and every job is recorded as foreseen.
-/

namespace Drydock

open Run (AtJob AtStep Emits)

variable {workflow : Workflow} {c₀ c : Context} {p : Plan} {w : World} {workingDir : String}
  {scratch : Except FileFault String}

section Execution

variable {before after : List Event} {e : Event}

theorem emits_of_execute
    (noted : (workflow.execute w workingDir scratch p c).events = before ++ e :: after)
    (other : e ≠ .engineClosed) :
    ∃ directory, scratch = .ok directory ∧
      Emits (Run.jobs w workflow.jobs p.jobs) (.initial workingDir directory c) before e := by
  cases scratch with
  | error fault => simp [Workflow.execute] at noted
  | ok directory =>
    have emits : Emits (Run.plan w workflow.jobs p.jobs) (.initial workingDir directory c) before e :=
      ⟨List.nil_prefix, after, by rw [List.append_assoc]; exact noted.symm⟩
    exact ⟨directory, rfl, emits.of_plan.resolve_left other⟩

theorem events_prefix_of_execute {directory : String} {earlier : List JobPlan} {v : JobPlan} {j : Job}
    {passed : List Step} {s : Step} {m : Machine}
    (come : AtStep w workflow.jobs p.jobs (.initial workingDir directory c) earlier v j passed s m) :
    (Run.reach w (passed.length + 1) j.steps.length s m).2.events <+:
      (workflow.execute w workingDir (.ok directory) p c).events := by
  rw [events_of_execute]
  exact come.events_prefix.trans (List.prefix_append _ _)

theorem jobs_of_execute {done : List JobRun}
    (finished : (workflow.execute w workingDir scratch p c).ending = .finished done) :
    ∃ directory m, scratch = .ok directory ∧
      Run.jobs w workflow.jobs p.jobs (.initial workingDir directory c) = (.ok done, m) ∧
      (workflow.execute w workingDir scratch p c).context = m.context := by
  cases scratch with
  | error fault => cases finished
  | ok directory =>
    simp only [Workflow.execute, Run.plan_apply] at finished ⊢
    rcases h : Run.jobs w workflow.jobs p.jobs (.initial workingDir directory c) with ⟨s | d, m⟩
    · rw [h] at finished
      cases s <;> cases finished
    · rw [h] at finished
      cases finished
      exact ⟨directory, m, rfl, h, rfl⟩

end Execution

/-- Whatever containers do, a run that follows a plan of its workflow does as the plan says: what a job
needs has succeeded in this run when the job starts, and a run that finishes has done the jobs that
would run, in order, and has recorded for each job what was foreseen. -/
theorem Workflow.execute_agrees_with_plan (planned : workflow.plan c₀ = .ok p) (w : World)
    (workingDir : String) (scratch : Except FileFault String) (c : Context) :
    (∀ before name after,
      (workflow.execute w workingDir scratch p c).events = before ++ .jobStarted name :: after →
        ∃ directory earlier v m, scratch = .ok directory ∧
          AtJob w workflow.jobs p.jobs (.initial workingDir directory c) earlier v m ∧
          v.name = name ∧ m.events = before ∧ ∀ dep, workflow.Needs name dep →
            (∃ outputs, .jobSucceeded dep outputs ∈ before) ∧ m.context.Succeeded dep) ∧
    ∀ done, (workflow.execute w workingDir scratch p c).ending = .finished done →
      done.map JobRun.name = p.runnable.map JobPlan.name ∧
      ∀ name ∈ workflow.jobs.keys, ∃ v ∈ p.jobs, v.name = name ∧
        ((workflow.execute w workingDir scratch p c).context.jobs.get? name).map
          Completion.status = some (if v.wouldRun then "success" else "skipped") := by
  have foreseen := foreseen_of_plan planned
  refine ⟨?_, ?_⟩
  · intro before name after noted
    obtain ⟨directory, ok, emits⟩ := emits_of_execute noted nofun
    obtain ⟨earlier, v, m, come, rfl, rfl⟩ := AtJob.of_emits emits
    refine ⟨directory, earlier, v, m, ok, come, rfl, rfl, ?_⟩
    intro dep needed
    obtain ⟨⟨later, split⟩, runs, done, ran⟩ := come
    obtain ⟨-, mirrors, -, noted⟩ := Run.done_of_jobs ran
    have member : v ∈ p.jobs := split ▸ List.mem_append_right _ List.mem_cons_self
    have succeeds : p.WouldRun dep := foreseen.wouldRun_of_needs ⟨v, member, rfl, runs⟩ needed
    obtain ⟨d, found, rfl⟩ := foreseen.exists_earlier split needed
    have planned : d ∈ p.jobs := split ▸ List.mem_append_left _ found
    have would : d.wouldRun = true := (foreseen.wouldRun_iff_of_mem planned).mp succeeds
    refine ⟨noted d found would, ?_⟩
    rw [(mirrors c (.refl c)).succeeded_iff]
    exact (succeeded_recordPlans_iff (foreseen.earlier_nodup split) found).mpr would
  · intro done finished
    obtain ⟨directory, m, -, ran, context⟩ := jobs_of_execute finished
    obtain ⟨names, mirrors, -, -⟩ := Run.done_of_jobs ran
    refine ⟨names, ?_⟩
    intro name declared
    obtain ⟨v, member, rfl⟩ := List.mem_map.mp ((foreseen.isOrder.mem_iff name).mpr declared)
    refine ⟨v, member, rfl, ?_⟩
    rw [context, (mirrors c (.refl c)).status, get?_recordPlans_of_mem foreseen.names_nodup member]
    rfl

/-- The jobs that were done in a run that finished. -/
def RunEnd.done? : RunEnd → Option (List JobRun)
  | .finished done => some done
  | _ => none

/-- A world in which every container does nothing and exits well. -/
def World.idle : World where
  engine := ⟨fun _ _ => none, fun _ => "container", fun _ _ => .idle⟩
  clone _ := .ok ()
  metadata _ := .error (.refused "no metadata")
  settings := ⟨"ubuntu:latest", "/tmp/actions", "main", 10, Float.ofBits 0, "docker"⟩
  currentDir := Path.parse "/"

/-- The run of the sample in an idle world. -/
def Plan.runSample (p : Plan) : Outcome :=
  Workflow.sample.execute .idle "/work" (.ok "/files") p .sample

set_option maxRecDepth 10000 in
theorem run_sample :
    (Workflow.sample.plan .sample).toOption.map (fun p =>
        (p.jobs.map fun v => (v.name, v.wouldRun, v.steps.map StepPlan.wouldRun),
          p.runSample.events.filter fun e => 2 ≤ e.scope,
          p.runSample.ending.done?.map (List.map JobRun.name))) =
      some ([("lint", false, []), ("test", false, []), ("setup", true, []),
          ("report", true, [true, false])],
        [.jobStarted "setup", .jobSucceeded "setup" ∅, .jobStarted "report",
          .stepReached 1 2 "summary", .stepReached 2 2 "upload", .stepSkipped,
          .jobSucceeded "report" ∅, .engineClosed],
        some ["setup", "report"]) := by
  cbv

theorem exists_run_sample :
    ∃ p, Workflow.sample.plan .sample = .ok p ∧
      p.jobs.map (fun v => (v.name, v.wouldRun, v.steps.map StepPlan.wouldRun)) =
        [("lint", false, []), ("test", false, []), ("setup", true, []),
          ("report", true, [true, false])] ∧
      p.runSample.events.filter (fun e => 2 ≤ e.scope) =
        [.jobStarted "setup", .jobSucceeded "setup" ∅, .jobStarted "report",
          .stepReached 1 2 "summary", .stepReached 2 2 "upload", .stepSkipped,
          .jobSucceeded "report" ∅, .engineClosed] ∧
      p.runSample.ending.done?.map (List.map JobRun.name) = some ["setup", "report"] := by
  obtain ⟨p, planned, computed⟩ := exists_of_map_toOption run_sample
  obtain ⟨verdicts, rest⟩ := Prod.mk.inj computed
  obtain ⟨events, names⟩ := Prod.mk.inj rest
  exact ⟨p, planned, verdicts, events, names⟩

theorem Workflow.execute_agrees_with_plan_sample :
    ∃ p, Workflow.sample.plan .sample = .ok p ∧
      (.jobStarted "report" ∈ p.runSample.events ∧ ∀ before after,
        p.runSample.events = before ++ .jobStarted "report" :: after →
        ∃ outputs, .jobSucceeded "setup" outputs ∈ before) ∧
      ∃ done, p.runSample.ending = .finished done ∧
        done.map JobRun.name = p.runnable.map JobPlan.name ∧
        ∀ name ∈ Workflow.sample.jobs.keys, ∃ v ∈ p.jobs, v.name = name ∧
          (p.runSample.context.jobs.get? name).map Completion.status =
            some (if v.wouldRun then "success" else "skipped") := by
  obtain ⟨p, planned, -, events, names⟩ := exists_run_sample
  obtain ⟨started, finished⟩ := Workflow.execute_agrees_with_plan planned .idle "/work" (.ok "/files")
    .sample
  refine ⟨p, planned, ⟨?_, ?_⟩, ?_⟩
  · have member : Event.jobStarted "report" ∈ p.runSample.events.filter fun e => 2 ≤ e.scope := by
      rw [events]
      simp
    exact (List.mem_filter.mp member).1
  · intro before after noted
    obtain ⟨_, _, _, _, _, _, _, _, needs⟩ := started before "report" after noted
    exact (needs "setup" ⟨_, rfl, List.mem_cons_self⟩).1
  · cases ended : p.runSample.ending with
    | finished done => exact ⟨done, rfl, finished done ended⟩
    | failed report =>
      rw [ended] at names
      cases names
    | stopped reason =>
      rw [ended] at names
      cases names

end Drydock
