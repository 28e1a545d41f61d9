import Drydock.Proofs.Plan.Verdict
import Drydock.Proofs.Run.Progress

set_option autoImplicit false
set_option relaxedAutoImplicit false

/-!
What a run records, and how it matches the verdicts. Main statement: after jobs are done, the data of
conditions mirror those that the verdicts on these jobs leave, and a success is noted for each job
that would run.
-/

namespace Drydock

open Machine (Turns)

/-- The data of a run differ from those of the verdicts at most in the variables, the records of
steps and the outputs of jobs. -/
structure Context.Mirrors (planned live : Context) : Prop where
  github : live.github = planned.github
  secrets : live.secrets = planned.secrets
  matrix : live.matrix = planned.matrix
  status : ∀ job, (live.jobs.get? job).map Completion.status =
    (planned.jobs.get? job).map Completion.status

namespace Context.Mirrors

variable {planned live : Context} {n : Nat} {m m' : Machine}

theorem refl (c : Context) : c.Mirrors c :=
  ⟨rfl, rfl, rfl, fun _ => rfl⟩

theorem recordJob (mirrors : planned.Mirrors live) (name status : String)
    (outputs outputs' : Bindings String) :
    (planned.recordJob name status outputs).Mirrors (live.recordJob name status outputs') := by
  refine ⟨mirrors.github, mirrors.secrets, mirrors.matrix, fun job => ?_⟩
  simp only [Context.recordJob, Bindings.get?_insert]
  split
  · rfl
  · exact mirrors.status job

theorem turns (mirrors : planned.Mirrors m.context) (turns : Turns n m m') :
    planned.Mirrors m'.context := by
  rw [turns.context]
  exact ⟨mirrors.github, mirrors.secrets, mirrors.matrix, mirrors.status⟩

theorem succeeded_iff (mirrors : planned.Mirrors live) (job : String) :
    live.Succeeded job ↔ planned.Succeeded job := by
  rw [succeeded_iff_status, succeeded_iff_status, mirrors.status job]

end Context.Mirrors

namespace Run

variable {w : World} {declared : Bindings Job} {m m' : Machine}

/-- What a job leaves that succeeds. -/
structure Completed (job : String) (m : Machine) (done : JobRun) (m' : Machine) : Prop where
  name : done.name = job
  status : done.status = .success
  ended : ∃ m₁, Turns 3 m m₁ ∧
    m'.context = m₁.context.recordJob job statusSuccess done.outputs ∧
    m'.events = m₁.events ++ [.jobSucceeded job done.outputs]

theorem keeps_openJob (name : String) (j : Job) : Keeps (Turns 3) (openJob name j) :=
  fun _ => ⟨rfl, [.jobStarted name], rfl, by simp [Event.scope]⟩

theorem completed_of_succeedJob {name : String} {j : Job} {done : JobRun} {m₁ : Machine}
    (before : Turns 3 m m₁) (ran : succeedJob name j m₁ = (.ok done, m')) :
    Completed name m done m' := by
  cases ran
  exact ⟨rfl, rfl, m₁, before, rfl, rfl⟩

theorem completed_of_job {name : String} {done : JobRun}
    (ran : job w declared name m = (.ok done, m')) : Completed name m done m' := by
  cases found : declared.get? name with
  | none =>
    unfold job at ran
    rw [found] at ran
    cases ran
  | some j =>
    rw [job_of_found found] at ran
    obtain ⟨outcome, m₁, tried, ran⟩ := bind_eq_ok.mp ran
    have inner := (keeps_steps w j.steps.length 1 j.steps).attempt (openJob name j m).2
    rw [tried] at inner
    have turns := trans_of (Turns 3) (keeps_openJob name j m) (inner.mono (Nat.le_succ 2))
    unfold closeJob at ran
    split at ran
    · exact completed_of_succeedJob turns ran
    · cases ran
    · cases ran

/-- What jobs leave that are all done. -/
structure Done (plans : List JobPlan) (m : Machine) (done : List JobRun) (m' : Machine) : Prop where
  names : done.map JobRun.name = (plans.filter JobPlan.wouldRun).map JobPlan.name
  mirrors : ∀ c : Context, c.Mirrors m.context → (c.recordPlans plans).Mirrors m'.context
  events : m.events <+: m'.events
  noted : ∀ v ∈ plans, v.wouldRun = true → ∃ outputs, .jobSucceeded v.name outputs ∈ m'.events

theorem done_of_jobs {plans : List JobPlan} {done : List JobRun}
    (ran : jobs w declared plans m = (.ok done, m')) : Done plans m done m' := by
  -- The data of the verdicts advance with the plans, so `mirrors` is for any data to begin with.
  induction plans generalizing m done with
  | nil =>
    cases ran
    exact ⟨rfl, fun c mirrors => mirrors, List.prefix_rfl, nofun⟩
  | cons p r ih =>
    cases h : p.wouldRun with
    | true =>
      rw [jobs_cons_of_run h] at ran
      obtain ⟨first, m₁, next, ran⟩ := bind_eq_ok.mp ran
      obtain ⟨rest, m₂, ran, same⟩ := bind_eq_ok.mp ran
      cases same
      obtain ⟨name, -, m₀, turns, context, events⟩ := completed_of_job next
      obtain ⟨names, mirrors, grown, noted⟩ := ih ran
      obtain ⟨es, logged, -⟩ := turns.logs
      refine ⟨by simp [h, names, name], ?_, ?_, ?_⟩
      · intro c before
        refine mirrors (c.recordJob p.name p.status ∅) ?_
        rw [context, JobPlan.status_eq_success_iff.mpr h]
        exact (before.turns turns).recordJob p.name statusSuccess ∅ first.outputs
      · refine List.IsPrefix.trans ?_ grown
        rw [events, logged, List.append_assoc]
        exact List.prefix_append _ _
      · intro v member runs
        rcases List.mem_cons.mp member with rfl | member
        · refine ⟨first.outputs, grown.subset ?_⟩
          rw [events]
          exact List.mem_append_right _ List.mem_cons_self
        · exact noted v member runs
    | false =>
      rw [jobs_cons_of_skip h] at ran
      obtain ⟨_, m₁, next, ran⟩ := bind_eq_ok.mp ran
      cases next
      obtain ⟨names, mirrors, grown, noted⟩ := ih ran
      refine ⟨by simp [h, names], ?_, grown, ?_⟩
      · intro c before
        refine mirrors (c.recordJob p.name p.status ∅) ?_
        rw [JobPlan.status_eq_skipped h]
        exact before.recordJob p.name statusSkipped ∅ ∅
      · intro v member runs
        rcases List.mem_cons.mp member with rfl | member
        · rw [h] at runs
          cases runs
        · exact noted v member runs

end Run

end Drydock
