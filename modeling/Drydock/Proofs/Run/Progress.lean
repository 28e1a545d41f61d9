import Drydock.Proofs.Run.Emission

set_option autoImplicit false
set_option relaxedAutoImplicit false

/-!
How far a run has come. A run comes to a job when the jobs before it are done, and to a step when the
steps before it are passed. Main statements: each start of a job and each step that is reached happens
at such a point of the run, and all that is noted from there on stays in the events of the run.
-/

namespace Drydock

namespace Run

open Machine (Logs)

/-- A run of plans has come to a job: those before it are done. -/
structure AtJob (w : World) (declared : Bindings Job) (plans : List JobPlan) (m₀ : Machine)
    (earlier : List JobPlan) (v : JobPlan) (m : Machine) : Prop where
  split : ∃ later, plans = earlier ++ v :: later
  wouldRun : v.wouldRun = true
  ran : ∃ done, jobs w declared earlier m₀ = (.ok done, m)

/-- A run of plans has come to a step of a job: those before it are passed. -/
structure AtStep (w : World) (declared : Bindings Job) (plans : List JobPlan) (m₀ : Machine)
    (earlier : List JobPlan) (v : JobPlan) (j : Job) (passed : List Step) (s : Step) (m : Machine) :
    Prop where
  found : declared.get? v.name = some j
  split : ∃ rest, j.steps = passed ++ s :: rest
  ran : ∃ start, AtJob w declared plans m₀ earlier v start ∧
    steps w j.steps.length 1 passed (openJob v.name j start).2 = (.ok (), m)

variable {w : World} {declared : Bindings Job} {plans earlier : List JobPlan} {m₀ m m₁ : Machine}
  {before : List Event} {e : Event} {p v : JobPlan}

theorem AtStep.planned {j : Job} {passed : List Step} {s : Step}
    (come : AtStep w declared plans m₀ earlier v j passed s m) :
    ∃ later, plans = earlier ++ v :: later := by
  obtain ⟨start, begun, -⟩ := come.ran
  exact begun.split

theorem jobs_cons_of_run (wouldRun : p.wouldRun = true) :
    jobs w declared (p :: plans) =
      job w declared p.name >>= fun done => jobs w declared plans >>= fun rest =>
        pure (done :: rest) := by
  rw [jobs, if_pos wouldRun]

theorem jobs_cons_of_skip (skipped : p.wouldRun = false) :
    jobs w declared (p :: plans) = skipJob p.name >>= fun _ => jobs w declared plans := by
  rw [jobs, if_neg (Bool.eq_false_iff.mp skipped)]

theorem AtJob.skip (skipped : p.wouldRun = false) (next : skipJob p.name m₀ = (.ok (), m₁))
    (come : AtJob w declared plans m₁ earlier v m) :
    AtJob w declared (p :: plans) m₀ (p :: earlier) v m := by
  obtain ⟨⟨later, rfl⟩, wouldRun, done, ran⟩ := come
  refine ⟨⟨later, rfl⟩, wouldRun, done, ?_⟩
  rw [jobs_cons_of_skip skipped]
  exact bind_eq_ok.mpr ⟨(), m₁, next, ran⟩

theorem AtJob.cons {first : JobRun} (runs : p.wouldRun = true)
    (next : job w declared p.name m₀ = (.ok first, m₁))
    (come : AtJob w declared plans m₁ earlier v m) :
    AtJob w declared (p :: plans) m₀ (p :: earlier) v m := by
  obtain ⟨⟨later, rfl⟩, wouldRun, done, ran⟩ := come
  refine ⟨⟨later, rfl⟩, wouldRun, first :: done, ?_⟩
  rw [jobs_cons_of_run runs]
  exact bind_eq_ok.mpr ⟨first, m₁, next, bind_eq_ok.mpr ⟨done, m, ran, rfl⟩⟩

/-- An event that jobs note is noted by one of them, when those before it are done. -/
theorem Emits.of_jobs (emits : Emits (jobs w declared plans) m₀ before e) :
    ∃ earlier v m, AtJob w declared plans m₀ earlier v m ∧
      Emits (job w declared v.name) m before e := by
  induction plans generalizing m₀ with
  | nil => exact absurd emits (Emits.not_of_stays rfl)
  | cons p r ih =>
    have others : Keeps (Logs 3) (jobs w declared r) := logs_jobs w declared r
    cases h : p.wouldRun with
    | true =>
      rw [jobs_cons_of_run h] at emits
      rcases emits.bind_inv fun _ => others.bind fun _ => .pure _ with first | ⟨first, m₁, ran, emits⟩
      · exact ⟨[], p, m₀, ⟨⟨r, rfl⟩, h, [], rfl⟩, first⟩
      rcases emits.bind_inv (n := 3) fun _ => .pure _ with inner | ⟨rest, m₂, -, quiet⟩
      · obtain ⟨earlier, v, m, come, noted⟩ := ih inner
        exact ⟨p :: earlier, v, m, come.cons h ran, noted⟩
      · exact absurd quiet (Emits.not_of_stays rfl)
    | false =>
      rw [jobs_cons_of_skip h] at emits
      rcases emits.bind_inv fun _ => others with quiet | ⟨_, m₁, ran, inner⟩
      · exact absurd quiet (Emits.not_of_stays rfl)
      · obtain ⟨earlier, v, m, come, noted⟩ := ih inner
        exact ⟨p :: earlier, v, m, come.skip h ran, noted⟩

theorem plan_apply :
    plan w declared plans m₀ =
      ((jobs w declared plans m₀).1, (close (jobs w declared plans m₀).2).2) := by
  exact settle_apply _ _

theorem Emits.of_plan (emits : Emits (plan w declared plans) m₀ before e) :
    e = .engineClosed ∨ Emits (jobs w declared plans) m₀ before e := by
  obtain ⟨start, found⟩ := emits
  rw [plan_apply] at found
  rcases List.prefix_concat_iff.mp found with same | inner
  · exact .inl (List.append_inj_right' same rfl |> List.cons.inj |>.1)
  · exact .inr ⟨start, inner⟩

theorem Emits.of_job_started {name job : String}
    (emits : Emits (Run.job w declared name) m before (.jobStarted job)) :
    before = m.events ∧ job = name := by
  obtain ⟨j, -, (⟨start, same⟩ | inner | same | ⟨outputs, same⟩)⟩ := emits.of_job
  · exact ⟨start, Event.jobStarted.inj same⟩
  · have small := inner.scope_le (logs_steps w _ 1 _)
    simp [Event.scope] at small
  · cases same
  · cases same

/-- A job starts when a run has come to it. -/
theorem AtJob.of_emits {name : String}
    (emits : Emits (jobs w declared plans) m₀ before (.jobStarted name)) :
    ∃ earlier v m, AtJob w declared plans m₀ earlier v m ∧ v.name = name ∧ m.events = before := by
  obtain ⟨earlier, v, m, come, noted⟩ := emits.of_jobs
  obtain ⟨rfl, rfl⟩ := noted.of_job_started
  exact ⟨earlier, v, m, come, rfl, rfl⟩

/-- A step is reached when a run has come to it. -/
theorem AtStep.of_emits {index total : Nat} {label : String}
    (emits : Emits (jobs w declared plans) m₀ before (.stepReached index total label)) :
    ∃ earlier v j passed s m, AtStep w declared plans m₀ earlier v j passed s m ∧
      index = passed.length + 1 ∧ total = j.steps.length ∧ label = s.displayName ∧
      m.events = before := by
  obtain ⟨earlier, v, start, come, noted⟩ := emits.of_jobs
  obtain ⟨j, found, (⟨-, same⟩ | inner | same | ⟨outputs, same⟩)⟩ := noted.of_job
  · cases same
  · obtain ⟨passed, s, rest, m, split, ran, reached⟩ := inner.of_steps
    obtain ⟨rfl, rfl, rfl, rfl⟩ := reached.of_reach
    exact ⟨earlier, v, j, passed, s, m, ⟨found, ⟨rest, split⟩, start, come, ran⟩,
      Nat.add_comm 1 _, rfl, rfl, rfl⟩
  · cases same
  · cases same

private theorem snd_bind_pure {α β : Type} (x : Run α) (f : α → β) (m : Machine) :
    ((x >>= fun a => (pure (f a) : Run β)) m).2 = (x m).2 := by
  rw [bind_apply]
  rcases x m with ⟨s | a, m₁⟩ <;> rfl

theorem jobs_append {rest : List JobPlan} {done : List JobRun}
    (ran : jobs w declared earlier m₀ = (.ok done, m)) :
    (jobs w declared (earlier ++ rest) m₀).2 = (jobs w declared rest m).2 := by
  induction earlier generalizing m₀ done with
  | nil =>
    cases ran
    rfl
  | cons p r ih =>
    rw [List.cons_append]
    cases h : p.wouldRun with
    | true =>
      rw [jobs_cons_of_run h] at ran ⊢
      obtain ⟨first, m₁, next, ran⟩ := bind_eq_ok.mp ran
      obtain ⟨others, m₂, ran, same⟩ := bind_eq_ok.mp ran
      cases same
      rw [bind_apply, next]
      exact (snd_bind_pure _ _ m₁).trans (ih ran)
    | false =>
      rw [jobs_cons_of_skip h] at ran ⊢
      obtain ⟨_, m₁, next, ran⟩ := bind_eq_ok.mp ran
      rw [bind_apply, next]
      exact ih ran

theorem steps_append {total i : Nat} {passed rest : List Step}
    (ran : steps w total i passed m₀ = (.ok (), m)) :
    steps w total i (passed ++ rest) m₀ = steps w total (i + passed.length) rest m := by
  induction passed generalizing i m₀ with
  | nil =>
    cases ran
    rfl
  | cons s r ih =>
    obtain ⟨_, m₁, next, ran⟩ := bind_eq_ok.mp ran
    rw [List.cons_append, steps, bind_apply, next, List.length_cons, ← Nat.add_assoc,
      Nat.add_right_comm]
    exact ih ran

/-- What a job notes from where a run has come to it stays. -/
theorem AtJob.events_prefix (come : AtJob w declared plans m₀ earlier v m) :
    (job w declared v.name m).2.events <+: (jobs w declared plans m₀).2.events := by
  obtain ⟨⟨later, rfl⟩, wouldRun, done, ran⟩ := come
  rw [jobs_append ran, jobs_cons_of_run wouldRun]
  exact events_bind (fun _ => (logs_jobs w declared later).bind fun _ => .pure _) m

theorem job_of_found {name : String} {j : Job} (found : declared.get? name = some j) :
    job w declared name m₀ =
      (attempt (steps w j.steps.length 1 j.steps) >>= closeJob name j) (openJob name j m₀).2 := by
  unfold job
  rw [found]
  rfl

/-- What a step notes from where a run has come to it stays. -/
theorem AtStep.events_prefix {j : Job} {passed : List Step} {s : Step}
    (come : AtStep w declared plans m₀ earlier v j passed s m) :
    (reach w (passed.length + 1) j.steps.length s m).2.events <+:
      (jobs w declared plans m₀).2.events := by
  obtain ⟨found, ⟨rest, split⟩, start, begun, ran⟩ := come
  have ofSteps : (reach w (passed.length + 1) j.steps.length s m).2.events <+:
      (steps w j.steps.length 1 j.steps (openJob v.name j start).2).2.events := by
    generalize j.steps.length = total at ran ⊢
    rw [split, steps_append ran, Nat.add_comm]
    exact events_bind (fun _ => logs_steps w _ _ rest) m
  refine ofSteps.trans (List.IsPrefix.trans ?_ begun.events_prefix)
  rw [job_of_found found]
  exact events_bind (x := attempt _) (logs_closeJob v.name j) _

end Run

section Execution

variable {w : World} {workingDir : String} {workflow : Workflow} {p : Plan} {c : Context}

theorem execute_of_directory (directory : String) :
    workflow.execute w workingDir (.ok directory) p c =
      let r := Run.jobs w workflow.jobs p.jobs (.initial workingDir directory c)
      ⟨.ofOutcome r.1, some { r.2.state with channel := none }, r.2.context,
        r.2.events ++ [.engineClosed]⟩ := by
  simp only [Workflow.execute, Run.plan_apply]
  rfl

theorem ending_of_execute (directory : String) :
    (workflow.execute w workingDir (.ok directory) p c).ending =
      .ofOutcome (Run.jobs w workflow.jobs p.jobs (.initial workingDir directory c)).1 := by
  rw [execute_of_directory]

theorem context_of_execute (directory : String) :
    (workflow.execute w workingDir (.ok directory) p c).context =
      (Run.jobs w workflow.jobs p.jobs (.initial workingDir directory c)).2.context := by
  rw [execute_of_directory]

theorem events_of_execute (directory : String) :
    (workflow.execute w workingDir (.ok directory) p c).events =
      (Run.jobs w workflow.jobs p.jobs (.initial workingDir directory c)).2.events ++
        [.engineClosed] := by
  rw [execute_of_directory]

theorem failed_of_execute {directory : String} {report : Report}
    (ended : (workflow.execute w workingDir (.ok directory) p c).ending = .failed report) :
    ∃ f m, Run.jobs w workflow.jobs p.jobs (.initial workingDir directory c) =
      (.error (.failure f), m) ∧ report = .ofFailure f := by
  rw [ending_of_execute] at ended
  rcases ran : Run.jobs w workflow.jobs p.jobs (.initial workingDir directory c) with
    ⟨(f | fault | message | fault | fault) | done, m⟩
  all_goals rw [ran] at ended
  all_goals cases ended
  exact ⟨f, m, rfl, rfl⟩

theorem stopped_of_execute {directory : String} {reason : Stop}
    (ended : (workflow.execute w workingDir (.ok directory) p c).ending = .stopped reason) :
    ∃ m, Run.jobs w workflow.jobs p.jobs (.initial workingDir directory c) = (.error reason, m) ∧
      ∀ f, reason ≠ .failure f := by
  rw [ending_of_execute] at ended
  rcases ran : Run.jobs w workflow.jobs p.jobs (.initial workingDir directory c) with
    ⟨(f | fault | message | fault | fault) | done, m⟩
  all_goals rw [ran] at ended
  all_goals cases ended
  all_goals exact ⟨m, rfl, by simp⟩

end Execution

end Drydock
