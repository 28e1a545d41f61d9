import Drydock.Proofs.Run.Lifecycle
import Drydock.Proofs.Run.Sequence

set_option autoImplicit false
set_option relaxedAutoImplicit false

/-!
Where a run stops. Main statement: a run that fails stops at the last step that it reaches, creates no
container after something went wrong, and leaves the records of all later jobs and of all steps that
are not reached as they were.
-/

namespace Drydock

open Relation (ReflTransGen)

namespace Machine

/-- The record of a job is what it was. -/
def SameJob (name : String) (m m' : Machine) : Prop :=
  m'.context.jobs.get? name = m.context.jobs.get? name

/-- The record of a step is what it was. -/
def SameStep (id : String) (m m' : Machine) : Prop :=
  m'.context.steps.get? id = m.context.steps.get? id

variable {m m' : Machine} {n : Nat} {id name : String}

instance : IsPreorder Machine (SameJob name) where
  refl _ := rfl
  trans _ _ _ first second := second.trans first

instance : IsPreorder Machine (SameStep id) where
  refl _ := rfl
  trans _ _ _ first second := second.trans first

theorem Turns.sameJob (turns : Turns n m m') (name : String) : SameJob name m m' := by
  rw [SameJob, turns.context]

theorem SameData.sameStep (same : SameData m m') (id : String) : SameStep id m m' := by
  rw [SameStep, same.context]

theorem Around.sameStep (around : Around m m') (id : String) : SameStep id m m' := by
  rw [SameStep, around.context]

theorem sameStep_recordStep {s : Step} {outcome : String} {outputs : Bindings String}
    (other : s.id ≠ id) (c : Context) :
    (if s.id ≠ "" then c.recordStep s.id outcome outputs else c).steps.get? id = c.steps.get? id := by
  split
  · rw [Context.recordStep, Bindings.get?_insert, if_neg (Ne.symm other)]
  · rfl

theorem sameStep_deliver {s : Step} (other : s.id ≠ id) (values : Channel.Collected) (m : Machine) :
    SameStep id m (m.deliver s values) := by
  unfold SameStep deliver
  dsimp only
  split
  · rw [Bindings.get?_insert, if_neg (Ne.symm other)]
  · rfl

end Machine

namespace Visit

open Machine (SameStep)

variable {w : World} {v : Visit} {id : String}

/-- A step changes no other record of a step than its own. -/
theorem sameStep_result (w : World) (other : v.step.id ≠ id) :
    SameStep id v.start (v.result w).2 := by
  have comes := v.comes w
  generalize (v.result w).1 = outcome, (v.result w).2 = m at comes
  cases comes with
  | unjudged fault judged => rfl
  | skipped refused => exact Machine.sameStep_recordStep other v.start.context
  | done admitted kind values m₁ m₂ works worked collected =>
    have same := (sameData_collected worked collected).sameStep id
    have delivered := Machine.sameStep_deliver other values m₂
    exact trans_of _ same delivered
  | failed admitted reason m failed =>
    obtain ⟨m₁, same, rfl | ⟨f, rfl⟩⟩ := sameData_failed failed
    · exact same.sameStep id
    · have deplored : SameStep id m₁ (m₁.deplore v.step f) :=
        Machine.sameStep_recordStep other m₁.context
      exact trans_of _ (same.sameStep id) deplored

end Visit

namespace Run

open Machine (SameJob SameStep)

variable {w : World} {declared : Bindings Job} {m m' : Machine} {name : String}

section Records

theorem handsOn_sameStep (w : World) (m₀ : Machine) (id : String) :
    HandsOn w (fun reached m => (∀ v ∈ reached, v.step.id ≠ id) → SameStep id m₀ m)
      (fun reached m => (∀ v ∈ reached, v.step.id ≠ id) → SameStep id m₀ m) where
  around around same others := trans_of (SameStep id) (same others) (around.sameStep id)
  passed {_ v _} same ended others := by
    have own := v.sameStep_result w (others v (by simp))
    rw [ended] at own
    exact trans_of _ (same fun u member => others u (by simp [member])) own
  stopped {_ v _ _} same ended others := by
    have own := v.sameStep_result w (others v (by simp))
    rw [ended] at own
    exact trans_of _ (same fun u member => others u (by simp [member])) own
  aroundFinal around same others := trans_of (SameStep id) (same others) (around.sameStep id)
  final_of_going same := same

theorem jobs_sameStep (w : World) (declared : Bindings Job) (plans : List JobPlan) (m : Machine)
    {id : String} (others : ∀ v ∈ visits w declared plans m, v.step.id ≠ id) :
    SameStep id m (jobs w declared plans m).2 :=
  have handed : Handed _ _ [] (visits w declared plans m) (jobs w declared plans m) :=
    (handsOn_sameStep w m id).jobs fun _ => rfl
  handed.final others

theorem sameJob_closeJob {other : String} (ne : other ≠ name) (j : Job) (outcome : Except Stop Unit) :
    Keeps (SameJob name) (closeJob other j outcome) := by
  intro m
  rcases outcome with (f | fault | message | fault | fault) | _
  all_goals try rfl
  · exact (Bindings.get?_insert _ _ _ _).trans (if_neg (Ne.symm ne))
  · exact (Bindings.get?_insert _ _ _ _).trans (if_neg (Ne.symm ne))

theorem sameJob_job {other : String} (ne : other ≠ name) :
    Keeps (SameJob name) (job w declared other) := by
  intro m
  cases found : declared.get? other with
  | none =>
    unfold job
    rw [found]
    rfl
  | some j =>
    rw [job_of_found found]
    have opened : SameJob name m (openJob other j m).2 := rfl
    have inner := (keeps_steps w j.steps.length 1 j.steps (openJob other j m).2).sameJob name
    exact trans_of _ opened (trans_of _ inner (sameJob_closeJob ne j _ _))

theorem sameJob_jobs {plans : List JobPlan} (others : ∀ p ∈ plans, p.name ≠ name) :
    Keeps (SameJob name) (jobs w declared plans) := by
  induction plans with
  | nil => exact .pure []
  | cons p r ih =>
    have first := others p List.mem_cons_self
    have rest := ih fun q member => others q (List.mem_cons_of_mem p member)
    cases runs : p.wouldRun with
    | true =>
      rw [jobs_cons_of_run runs]
      exact (sameJob_job first).bind fun _ => rest.bind fun _ => .pure _
    | false =>
      rw [jobs_cons_of_skip runs]
      refine Keeps.bind (fun m => ?_) fun _ => rest
      exact (Bindings.get?_insert _ _ _ _).trans (if_neg (Ne.symm first))

end Records

section Last

variable {reason : Stop}

/-- Steps that stop a job stop at the last one reached. -/
theorem last_of_steps {total index : Nat} {steps : List Step}
    (ended : Run.steps w total index steps m = (.error reason, m')) :
    ∃ before v, visitsOfSteps w name total index steps m = before ++ [v] ∧ v.job = name ∧
      v.result w = (.error reason, m') := by
  induction steps generalizing index m with
  | nil => cases ended
  | cons s r ih =>
    let v : Visit := ⟨name, index, total, s, m⟩
    have unfolded : visitsOfSteps w name total index (s :: r) m =
        v :: onward (fun m => visitsOfSteps w name total (index + 1) r m) (v.result w) := rfl
    rcases bind_eq_error.mp ended with stopped | ⟨_, m₁, passed, later⟩
    · have result : v.result w = (.error reason, m') := stopped
      rw [unfolded, result]
      exact ⟨[], v, rfl, rfl, result⟩
    · have result : v.result w = (.ok (), m₁) := passed
      obtain ⟨before, u, split, job, result'⟩ := ih later
      rw [unfolded, result, onward, split]
      exact ⟨v :: before, u, rfl, job, result'⟩

/-- A declared job that stops a run stops it at the last step reached. -/
theorem stop_of_job {j : Job} (found : declared.get? name = some j)
    (ended : job w declared name m = (.error reason, m')) :
    ∃ before v r m₁, visitsOfJob w declared name m = before ++ [v] ∧ v.job = name ∧
      v.result w = (.error r, m₁) ∧ closeJob name j (.error r) m₁ = (.error reason, m') := by
  unfold visitsOfJob
  rw [found]
  rw [job_of_found found] at ended
  rcases bind_eq_error.mp ended with none | ⟨outcome, m₁, tried, closed⟩
  · cases none
  obtain ⟨same, rfl⟩ := Prod.mk.inj tried
  rcases outcome with r | _
  · have ran : Run.steps w j.steps.length 1 j.steps (openJob name j m).2 =
        (.error r, (Run.steps w j.steps.length 1 j.steps (openJob name j m).2).2) :=
      Prod.ext (Except.ok.inj same) rfl
    obtain ⟨before, v, split, job, result⟩ : ∃ before v,
        visitsOfSteps w name j.steps.length 1 j.steps (openJob name j m).2 = before ++ [v] ∧
        v.job = name ∧ v.result w = (.error r, _) := last_of_steps ran
    exact ⟨before, v, r, _, split, job, result, closed⟩
  · cases closed

/-- A declared job that fails fails at the last step reached. -/
theorem last_of_job {j : Job} {f : Failure} (found : declared.get? name = some j)
    (ended : job w declared name m = (.error (.failure f), m')) :
    ∃ before v g m₁, visitsOfJob w declared name m = before ++ [v] ∧ v.job = name ∧
      v.result w = (.error (.failure g), m₁) ∧ f = g.inJob name ∧
      m'.events = m₁.events ++ [.jobFailed name] ∧
      m'.context.jobs.get? name = some ⟨(endOf g).text, ∅⟩ := by
  obtain ⟨before, v, r, m₁, split, job, result, closed⟩ := stop_of_job found ended
  rcases r with g | fault | message | fault | fault
  · obtain ⟨failure, rfl⟩ := Prod.mk.inj closed
    cases failure
    refine ⟨before, v, g, m₁, split, job, result, rfl, rfl, ?_⟩
    exact (Bindings.get?_insert _ _ _ _).trans (if_pos rfl)
  all_goals cases closed

/-- Jobs that stop a run stop in the last one that is begun. -/
theorem last_of_jobs {plans : List JobPlan}
    (ended : jobs w declared plans m = (.error reason, m')) :
    ∃ earlier u later done start, plans = earlier ++ u :: later ∧ u.wouldRun = true ∧
      jobs w declared earlier m = (.ok done, start) ∧
      job w declared u.name start = (.error reason, m') ∧
      ∃ before, visits w declared plans m = before ++ visitsOfJob w declared u.name start := by
  induction plans generalizing m with
  | nil => cases ended
  | cons p r ih =>
    unfold visits
    cases runs : p.wouldRun with
    | true =>
      rw [jobs_cons_of_run runs] at ended
      rw [if_pos rfl]
      rcases bind_eq_error.mp ended with stopped | ⟨first, m₁, ran, rest⟩
      · refine ⟨[], p, r, [], m, rfl, runs, rfl, stopped, [], ?_⟩
        rw [stopped, onward, List.append_nil]
        rfl
      · rcases bind_eq_error.mp rest with stopped | ⟨_, _, -, none⟩
        · obtain ⟨earlier, u, later, done, start, rfl, would, passed, last, before, split⟩ := ih stopped
          refine ⟨p :: earlier, u, later, first :: done, start, rfl, would, ?_, last,
            visitsOfJob w declared p.name m ++ before, ?_⟩
          · rw [jobs_cons_of_run runs]
            exact bind_eq_ok.mpr ⟨first, m₁, ran, bind_eq_ok.mpr ⟨done, start, passed, rfl⟩⟩
          · rw [ran, onward, split, List.append_assoc]
        · cases none
    | false =>
      rw [jobs_cons_of_skip runs] at ended
      rw [if_neg Bool.false_ne_true]
      rcases bind_eq_error.mp ended with none | ⟨_, m₁, passed₁, rest⟩
      · cases none
      · cases passed₁
        obtain ⟨earlier, u, later, done, start, rfl, would, passed, last, before, split⟩ := ih rest
        refine ⟨p :: earlier, u, later, done, start, rfl, would, ?_, last, before, split⟩
        rw [jobs_cons_of_skip runs]
        exact bind_eq_ok.mpr ⟨(), _, rfl, passed⟩

end Last

end Run

/-- A run has failed at a step: nothing comes after the step but the end of its job and of the run, the
job is recorded as failed and without outputs, no container was created after something went wrong, and
no other job than those up to this one has another record than before. -/
structure Outcome.FailsAt (w : World) (c : Context) (plans : List JobPlan) (o : Outcome)
    (report : Report) (v : Visit) : Prop where
  failed : ∃ f m, v.result w = (.error (.failure f), m) ∧ report = .ofFailure (f.inJob v.job) ∧
    o.events = m.events ++ [.jobFailed v.job, .engineClosed] ∧
    o.context.jobs.get? v.job = some ⟨(Run.endOf f).text, ∅⟩
  created : ∀ before spec after, Event.calls o.events = before ++ .create spec :: after →
    ∃ served, ReflTransGen w.engine.Serves [] served ∧ before = served ++ [.pull spec.image]
  quiet : ∀ before e after, o.events = before ++ e :: after → e.fails w = true →
    Event.calls after = []
  later : ∃ earlier u later, plans = earlier ++ u :: later ∧ u.name = v.job ∧
    ∀ name, (∀ x ∈ earlier ++ [u], x.name ≠ name) → o.context.jobs.get? name = c.jobs.get? name

section Execution

variable {w : World} {workingDir directory : String} {workflow : Workflow} {p : Plan} {c : Context}

theorem serves_of_create_of_execute {before after : List Engine.Call} {spec : ContainerSpec}
    (split : Event.calls (workflow.execute w workingDir (.ok directory) p c).events =
      before ++ .create spec :: after) :
    ∃ served, ReflTransGen w.engine.Serves [] served ∧ before = served ++ [.pull spec.image] := by
  rw [calls_of_execute] at split
  obtain ⟨served, chain, last⟩ :=
    (Run.jobs_serves w workflow.jobs p.jobs (.initial workingDir directory c)).final.calls
  exact Engine.serves_of_create chain last split

theorem quiet_of_execute {before after : List Event} {e : Event}
    (split : (workflow.execute w workingDir (.ok directory) p c).events = before ++ e :: after)
    (fails : e.fails w = true) : Event.calls after = [] := by
  obtain ⟨es, es', events, well, none⟩ :=
    (Run.jobs_serves w workflow.jobs p.jobs (.initial workingDir directory c)).final.events
  have none' : Event.calls (es' ++ [.engineClosed]) = [] := by
    rw [Event.calls_append, none]
    rfl
  rw [events_of_execute, events, List.append_assoc, List.append_assoc] at split
  have split : es ++ (es' ++ [.engineClosed]) = before ++ e :: after := split
  rcases append_eq_append_cons split with ⟨more, inner, -⟩ | ⟨more, -, rest⟩
  · have member : e ∈ es := inner ▸ List.mem_append_right _ List.mem_cons_self
    rw [well e member] at fails
    cases fails
  · have split' : more ++ e :: after = (more ++ [e]) ++ after := by simp
    rw [rest, split', Event.calls_append] at none'
    exact (List.append_eq_nil_iff.mp none').2

theorem sameStep_of_execute {id : String}
    (others : ∀ v ∈ workflow.visits w workingDir (.ok directory) p c, v.step.id ≠ id) :
    (workflow.execute w workingDir (.ok directory) p c).context.steps.get? id = c.steps.get? id := by
  rw [context_of_execute]
  exact Run.jobs_sameStep w workflow.jobs p.jobs _ others

theorem failsAt_of_execute {report : Report}
    (ended : (workflow.execute w workingDir (.ok directory) p c).ending = .failed report)
    (declared : ∀ u ∈ p.jobs, u.wouldRun = true → workflow.jobs.get? u.name ≠ none) :
    ∃ before v, workflow.visits w workingDir (.ok directory) p c = before ++ [v] ∧
      (workflow.execute w workingDir (.ok directory) p c).FailsAt w c p.jobs report v := by
  obtain ⟨f, m', ran, rfl⟩ := failed_of_execute ended
  obtain ⟨earlier, u, later, done, start, split, would, passed, last, before, visits⟩ :=
    Run.last_of_jobs ran
  have member : u ∈ p.jobs := split ▸ List.mem_append_right _ List.mem_cons_self
  obtain ⟨j, found⟩ := Option.ne_none_iff_exists'.mp (declared u member would)
  obtain ⟨inner, v, g, m₁, steps, job, result, rfl, events, recorded⟩ := Run.last_of_job found last
  have reached : workflow.visits w workingDir (.ok directory) p c = before ++ (inner ++ [v]) :=
    visits.trans (congrArg _ steps)
  refine ⟨before ++ inner, v, by rw [reached, List.append_assoc], ⟨g, m₁, result, by rw [job], ?_, ?_⟩,
    fun _ _ _ => serves_of_create_of_execute, fun _ _ _ => quiet_of_execute, earlier, u, later, split,
    job.symm, fun name others => ?_⟩
  · rw [events_of_execute, ran, events, job, List.append_assoc]
    rfl
  · rw [context_of_execute, ran, job]
    exact recorded
  · have before_ : Machine.SameJob name (.initial workingDir directory c) start := by
      have kept : Run.Keeps (Machine.SameJob name) (Run.jobs w workflow.jobs earlier) :=
        Run.sameJob_jobs fun x member => others x (List.mem_append_left _ member)
      have same := kept (.initial workingDir directory c)
      rwa [passed] at same
    have inside : Machine.SameJob name start m' := by
      have kept : Run.Keeps (Machine.SameJob name) (Run.job w workflow.jobs u.name) :=
        Run.sameJob_job (others u (by simp))
      have same := kept start
      rwa [last] at same
    rw [context_of_execute, ran]
    exact trans_of _ before_ inside

end Execution

/-- Whatever containers do, the steps that a run reaches are the first of those that its jobs declare,
each is done exactly if its condition holds at that moment, and one that is passed over makes no call.
A run that finishes has reached all of them; one that fails, although its files could be made and its
jobs are declared, has failed at the last step that it reached. -/
theorem Workflow.execute_reaches_in_sequence (w : World) (workingDir : String)
    (scratch : Except FileFault String) (workflow : Workflow) (p : Plan) (c : Context) :
    let o := workflow.execute w workingDir scratch p c
    let reached := workflow.visits w workingDir scratch p c
    reached.map Visit.place <+: Run.sequence workflow.jobs p.jobs ∧
    o.events.filter Event.isReached = reached.map Visit.mark ∧
    (∀ v ∈ reached, (v.result w).2.events <+: o.events ∧
      (v.attempted = true ↔ v.start.context.Admits v.step.condition) ∧
      (v.attempted = true → v.result w = Run.turn w v.step true v.arrival) ∧
      (v.attempted = false → (v.result w).2.calls = v.start.calls)) ∧
    (∀ id, (∀ v ∈ reached, v.step.id ≠ id) → o.context.steps.get? id = c.steps.get? id) ∧
    (∀ done, o.ending = .finished done →
      reached.map Visit.place = Run.sequence workflow.jobs p.jobs) ∧
    ∀ report, o.ending = .failed report →
      (∃ fault, scratch = .error fault) ∨
      (∃ u ∈ p.jobs, u.wouldRun = true ∧ workflow.jobs.get? u.name = none) ∨
      ∃ before v, reached = before ++ [v] ∧ o.FailsAt w c p.jobs report v := by
  cases scratch with
  | error fault =>
    have unvisited : workflow.visits w workingDir (.error fault) p c = [] := rfl
    have opened : workflow.execute w workingDir (.error fault) p c =
        ⟨.failed (.noFiles fault.message), none, c, []⟩ := rfl
    simp [unvisited, opened]
  | ok directory =>
    refine ⟨begins_of_execute w workingDir directory workflow p c,
      marks_of_execute w workingDir directory workflow p c, fun v member => ?_,
      fun id others => sameStep_of_execute others,
      fun done ended => whole_of_execute w workingDir directory workflow p c ended,
      fun report ended => .inr ?_⟩
    · exact ⟨stays_of_execute w workingDir directory workflow p c member, Visit.attempted_iff,
        Visit.result_of_attempted w, Visit.calls_of_not_attempted w⟩
    · by_cases declared : ∀ u ∈ p.jobs, u.wouldRun = true → workflow.jobs.get? u.name ≠ none
      · exact .inr (failsAt_of_execute ended declared)
      · push Not at declared
        exact .inl declared

end Drydock
