import Drydock.Proofs.Plan.Reordering
import Drydock.Proofs.Run.Shadow
import Mathlib

set_option autoImplicit false
set_option relaxedAutoImplicit false

/-!
Secrets. The only way from them to a run leads through the paths of conditions. Main statement: where
no condition of a workflow reads a secret, other secrets change neither its plan nor its run.
-/

namespace Drydock

def Context.withSecrets (c : Context) (secrets : Bindings String) : Context :=
  { c with secrets := secrets }

def Plan.withSecrets (p : Plan) (secrets : Bindings String) : Plan :=
  { p with context := p.context.withSecrets secrets }

/-- A path leads to the secrets: that is what its first segment names. -/
def Context.LeadsToSecrets (path : String) : Prop :=
  (Context.segments path).head? = some "secrets"

/-- No condition of a job or a step has a path to the secrets. A condition that cannot be parsed has
no paths. -/
def Workflow.ReadsNoSecrets (w : Workflow) : Prop :=
  ∀ name j, w.jobs.get? name = some j → ∀ e ∈ j.conditions, ∀ path ∈ Expr.paths e,
    ¬Context.LeadsToSecrets path

section Conditions

variable {c : Context} {secrets : Bindings String} {expression path : String}

theorem Context.lookup_withSecrets (aside : ¬Context.LeadsToSecrets path) :
    (c.withSecrets secrets).lookup path = c.lookup path := by
  unfold Context.LeadsToSecrets at aside
  simp only [Context.lookup, Context.lookupSegments]
  split
  case h_3 name cut => exact absurd (congrArg List.head? cut) aside
  all_goals rfl

theorem evaluate_withSecrets
    (aside : ∀ path ∈ Expr.paths expression, ¬Context.LeadsToSecrets path) :
    Expr.evaluate (c.withSecrets secrets).lookup expression = Expr.evaluate c.lookup expression :=
  Expr.evaluate_congr fun path member => Context.lookup_withSecrets (aside path member)

end Conditions

theorem planJobs_withSecrets {jobs : Bindings Job}
    (aside : ∀ name j, jobs.get? name = some j → ∀ e ∈ j.conditions, ∀ path ∈ Expr.paths e,
      ¬Context.LeadsToSecrets path) (c : Context) (secrets : Bindings String) (order : List String) :
    planJobs jobs (c.withSecrets secrets) order =
      (planJobs jobs c order).map fun r => (r.1, r.2.withSecrets secrets) := by
  induction order generalizing c with
  | nil => rfl
  | cons name r ih =>
    cases found : jobs.get? name with
    | none => simp only [planJobs, found, ih]
    | some j =>
      have verdict : planJob (c.withSecrets secrets) name j = planJob c name j :=
        planJob_congr (fun _ _ => rfl) fun e member => evaluate_withSecrets (aside name j found e member)
      simp only [planJobs, found, verdict]
      cases planJob c name j with
      | error fault => rfl
      | ok v =>
        have later := ih (c.recordJob name v.status ∅)
        have recorded : (c.withSecrets secrets).recordJob name v.status ∅ =
            (c.recordJob name v.status ∅).withSecrets secrets := rfl
        simp only [bind, Except.bind, recorded, later]
        cases planJobs jobs (c.recordJob name v.status ∅) r <;> rfl

/-- Runs know the data of conditions through conditions only. -/
theorem Run.shadowFrame_withSecrets (w : World) (secrets : Bindings String) :
    Run.ShadowFrame w w (·.withSecrets secrets) id where
  twins := .refl w
  begun := rfl
  calls _ := rfl
  noted _ _ _ := rfl
  tidied c _ := by
    intro m
    have calls : (m.recast (·.withSecrets secrets) id).calls = m.calls := rfl
    simp only [Run.tidy, calls]
    cases w.engine.refuses m.calls c <;> rfl
  recordJob _ _ _ _ := rfl
  recordStep _ _ _ _ := rfl
  updateEnv _ _ := rfl

/-- Where no condition reads a secret, other secrets lead to the same verdicts with the same reasons
and traces, or to the same fault, and runs do the same and end alike: the same calls with the same
specifications, the same lines, the same state, and the same data but for the secrets. -/
theorem Workflow.hides_secrets {workflow : Workflow} (reads : workflow.ReadsNoSecrets) (c : Context)
    (secrets : Bindings String) :
    workflow.plan (c.withSecrets secrets) = (workflow.plan c).map (·.withSecrets secrets) ∧
      ∀ (w : World) (workingDir : String) (scratch : Except FileFault String) (p p' : Plan),
        p'.jobs = p.jobs →
          let o := workflow.execute w workingDir scratch p c
          let o' := workflow.execute w workingDir scratch p' (c.withSecrets secrets)
          o'.ending = o.ending ∧ o'.state = o.state ∧ o'.events = o.events ∧
            o'.context = o.context.withSecrets secrets := by
  constructor
  · unfold Workflow.plan
    cases workflow.order with
    | error fault => rfl
    | ok order =>
      have planned := planJobs_withSecrets reads c secrets order
      simp only [planned]
      cases planJobs workflow.jobs c order <;> rfl
  · intro w workingDir scratch p p' same o o'
    have judged : ∀ name j, workflow.jobs.get? name = some j → ∀ s ∈ j.steps, ∀ c : Context,
        judge? (c.withSecrets secrets) s.condition = judge? c s.condition := by
      intro name j found s member c
      have own : s.condition ∈ j.conditions := List.mem_cons_of_mem _ (List.mem_map_of_mem member)
      exact judge?_congr (evaluate_withSecrets (reads name j found s.condition own))
    have recast : o' = o.recast (·.withSecrets secrets) id :=
      (Run.shadowFrame_withSecrets w secrets).execute judged workingDir scratch same c
    rw [recast]
    exact ⟨rfl, rfl, rfl, rfl⟩

/-- A job that names a secret in a command, and whose step reads a variable called as the secrets are. -/
def Workflow.deploying : Workflow where
  name := "deploying"
  on := .text "push"
  env := ∅
  jobs := .ofList [
    ("deploy", { (default : Job) with
      steps := [{ (default : Step) with
        name := "deploy"
        run := "deploy $\x7b\x7b secrets.TOKEN \x7d\x7d"
        condition := "env.secrets != 'off'" }] })]

/-- Data with a token. -/
def Context.trusted (token : String) : Context :=
  Context.empty.withSecrets (.ofList [("TOKEN", token)])

set_option maxRecDepth 10000 in
theorem Workflow.readsNoSecrets_deploying : Workflow.deploying.ReadsNoSecrets := by
  have none : Expr.paths "" = [] := by cbv
  have read : Expr.paths "env.secrets != 'off'" = ["env.secrets"] := by cbv
  have cut : Context.segments "env.secrets" = ["env", "secrets"] := by cbv
  intro name j found
  rw [Bindings.get?_eq_some_iff] at found
  obtain ⟨rfl, rfl⟩ := Prod.mk.inj (List.mem_singleton.mp found)
  intro e member path written
  change e ∈ ["", "env.secrets != 'off'"] at member
  simp only [List.mem_cons, List.not_mem_nil, or_false] at member
  rcases member with rfl | rfl
  · rw [none] at written
    cases written
  · rw [read] at written
    obtain rfl := List.mem_singleton.mp written
    simp [Context.LeadsToSecrets, cut]

set_option maxRecDepth 10000 in
/-- With either token the job is planned to run, its step included, and the runs make the same
calls. -/
theorem Workflow.hides_token_deploying :
    Workflow.deploying.ReadsNoSecrets ∧
      ∃ p, Workflow.deploying.plan (.trusted "abc") = .ok p ∧
        Workflow.deploying.plan (.trusted "xyz") =
          .ok (p.withSecrets (.ofList [("TOKEN", "xyz")])) ∧
        (p.jobs.map fun v => (v.wouldRun, v.steps.map StepPlan.wouldRun)) = [(true, [true])] ∧
        ∀ (w : World) (workingDir : String) (scratch : Except FileFault String),
          (Workflow.deploying.execute w workingDir scratch p (.trusted "xyz")).events =
            (Workflow.deploying.execute w workingDir scratch p (.trusted "abc")).events := by
  have computed : ((Workflow.deploying.plan (.trusted "abc")).toOption.map fun p =>
      p.jobs.map fun v => (v.wouldRun, v.steps.map StepPlan.wouldRun)) =
        some [(true, [true])] := by cbv
  obtain ⟨p, planned, verdicts⟩ := exists_of_map_toOption computed
  obtain ⟨plans, runs⟩ := Workflow.hides_secrets Workflow.readsNoSecrets_deploying (.trusted "abc")
    (.ofList [("TOKEN", "xyz")])
  have other : Workflow.deploying.plan (.trusted "xyz") =
      .ok (p.withSecrets (.ofList [("TOKEN", "xyz")])) := by
    rw [planned] at plans
    exact plans
  refine ⟨Workflow.readsNoSecrets_deploying, p, planned, other, verdicts, ?_⟩
  intro w workingDir scratch
  exact (runs w workingDir scratch p p rfl).2.2.1

end Drydock
