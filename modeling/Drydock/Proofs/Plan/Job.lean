import Drydock.Plan
import Drydock.Proofs.Traversal

set_option autoImplicit false
set_option relaxedAutoImplicit false

/-!
The verdict on one job and the data it is made in. Main statements: when a condition is judged to
hold, which need of a job is named as unmet, and what a verdict records for later ones.
-/

namespace Drydock

/-- A condition has the value true; any other value does not do, and neither does a fault. -/
def Context.Satisfies (c : Context) (expression : String) : Prop :=
  ∃ outcome, Expr.evaluate c.lookup expression = .ok outcome ∧ outcome.value = .bool true

/-- A condition is absent or holds. -/
def Context.Admits (c : Context) (expression : String) : Prop :=
  expression = "" ∨ c.Satisfies expression

/-- The data of conditions after the verdicts on some jobs. -/
def Context.recordPlans (c : Context) (plans : List JobPlan) : Context :=
  plans.foldl (fun c p => c.recordJob p.name p.status ∅) c

/-- A job is recorded as a success. -/
def Context.Succeeded (c : Context) (job : String) : Prop :=
  ∃ done, c.jobs.get? job = some done ∧ done.status = statusSuccess

variable {c : Context} {expression : String}

theorem value_of_judge {verdict : Condition} (judged : judge c expression = .ok verdict) :
    verdict.value = true ↔ c.Satisfies expression := by
  unfold judge at judged
  unfold Context.Satisfies
  cases h : Expr.evaluate c.lookup expression with
  | error fault =>
    rw [h] at judged
    cases fault <;> cases judged <;> simp
  | ok outcome =>
    rw [h] at judged
    cases judged
    simp only [Except.ok.injEq, exists_eq_left']
    split
    · rename_i b same
      simp [same]
    · rename_i other
      simp only [Bool.false_eq_true, false_iff]
      exact other true

theorem all_of_judge? {verdict : Option Condition} (judged : judge? c expression = .ok verdict) :
    verdict.all Condition.value = true ↔ c.Admits expression := by
  unfold judge? at judged
  split at judged
  · rename_i absent
    cases judged
    simp [Context.Admits, absent]
  · rename_i present
    cases h : judge c expression with
    | error fault =>
      rw [h] at judged
      cases judged
    | ok v =>
      rw [h] at judged
      cases judged
      simp [Context.Admits, present, value_of_judge h]

theorem not_admits_of_judge? {fault : PlanFault} (refused : judge? c expression = .error fault) :
    ¬ c.Admits expression := by
  unfold judge? at refused
  split at refused
  · cases refused
  · rename_i present
    rintro (absent | ⟨outcome, evaluated, -⟩)
    · exact present absent
    · simp only [judge, evaluated] at refused
      cases refused

theorem statusSkipped_ne_success : statusSkipped ≠ statusSuccess := by decide

theorem JobPlan.status_eq_success_iff {p : JobPlan} :
    p.status = statusSuccess ↔ p.wouldRun = true := by
  unfold JobPlan.status
  split
  · simp_all
  · simp_all [statusSkipped_ne_success]

theorem JobPlan.status_eq_skipped {p : JobPlan} (skipped : p.wouldRun = false) :
    p.status = statusSkipped := by
  rw [JobPlan.status, if_neg (Bool.eq_false_iff.mp skipped)]

theorem succeeded_iff_status (c : Context) (job : String) :
    c.Succeeded job ↔ ((c.jobs.get? job).map Completion.status).getD "" = statusSuccess := by
  unfold Context.Succeeded
  cases c.jobs.get? job with
  | none => simp [statusSuccess]
  | some done => simp

theorem unmetNeed?_eq_none_iff {needs : List String} :
    unmetNeed? c needs = none ↔ ∀ dep ∈ needs, c.Succeeded dep := by
  induction needs with
  | nil => simp [unmetNeed?]
  | cons dep r ih =>
    simp only [unmetNeed?, List.forall_mem_cons, succeeded_iff_status c dep]
    split
    · rename_i met
      simp [ih, met]
    · rename_i unmet
      simp [unmet]

theorem unmetNeed?_eq_some {needs : List String} {reason : String}
    (unmet : unmetNeed? c needs = some reason) :
    ∃ met dep rest, needs = met ++ dep :: rest ∧ (∀ d ∈ met, c.Succeeded d) ∧ ¬ c.Succeeded dep ∧
      ∀ done, c.jobs.get? dep = some done → done.status ≠ "" →
        reason = s!"dependency '{dep}' was {done.status}" := by
  induction needs with
  | nil => cases unmet
  | cons dep r ih =>
    simp only [unmetNeed?] at unmet
    split at unmet
    · rename_i isMet
      obtain ⟨met, other, rest, rfl, succeeded, failed, text⟩ := ih unmet
      refine ⟨dep :: met, other, rest, rfl, ?_, failed, text⟩
      exact List.forall_mem_cons.mpr ⟨(succeeded_iff_status c _).mpr isMet, succeeded⟩
    · rename_i notMet
      refine ⟨[], dep, r, rfl, nofun, fun isMet => notMet ((succeeded_iff_status c _).mp isMet), ?_⟩
      intro done found present
      simpa [found, present] using unmet.symm

/-- What a verdict on a job is made of. -/
structure Judged (c : Context) (name : String) (j : Job) (p : JobPlan) : Prop where
  name : p.name = name
  needs : p.needs = j.dependencies
  steps : List.Forall₂ (fun s sp => planStep c s = .ok sp) j.steps p.steps
  wouldRun : p.wouldRun = true ↔ (∀ dep ∈ j.dependencies, c.Succeeded dep) ∧ c.Admits j.condition
  refused : ¬ c.Admits j.condition → p.skipReason = conditionFalse
  admitted : c.Admits j.condition → p.skipReason = (unmetNeed? c j.dependencies).getD ""

private theorem any_not_eq_not_all {α : Type} (o : Option α) (f : α → Bool) :
    (o.any fun a => !f a) = !o.all f := by
  cases o <;> simp

theorem judged_of_planJob {name : String} {j : Job} {p : JobPlan} (planned : planJob c name j = .ok p) :
    Judged c name j p := by
  obtain ⟨condition, judged, planned⟩ := bind_eq_ok_iff.mp planned
  obtain ⟨steps, read, planned⟩ := bind_eq_ok_iff.mp planned
  have same := Except.ok.inj planned
  have admits := all_of_judge? judged
  rw [any_not_eq_not_all] at same
  subst same
  refine ⟨rfl, rfl, mapM_eq_ok_iff.mp read, ?_, ?_, ?_⟩
  · simp only [Bool.not_not, Bool.and_eq_true, Option.isNone_iff_eq_none, admits,
      unmetNeed?_eq_none_iff]
    exact and_comm
  · intro refused
    have off : condition.all Condition.value = false :=
      Bool.eq_false_iff.mpr fun on => refused (admits.mp on)
    simp [off]
  · intro admitted
    simp [admits.mpr admitted]

end Drydock
