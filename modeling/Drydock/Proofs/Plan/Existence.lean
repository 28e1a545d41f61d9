import Drydock.Proofs.Expr.Overflow
import Drydock.Proofs.Plan.Verdict

set_option autoImplicit false
set_option relaxedAutoImplicit false

/-!
When there is a plan. Main statement: a workflow whose jobs can be ordered has a plan unless one of
its conditions meets an integer beyond the range of doubles or with too many digits, and in a plan
every other condition that cannot be evaluated is reported as false with its fault.
-/

namespace Drydock

/-- A condition meets an integer that is too large to be compared or too long to be written. -/
def Context.Overflows (c : Context) (expression : String) : Prop :=
  Expr.evaluate c.lookup expression = .error .integerTooLarge ∨
    Expr.evaluate c.lookup expression = .error .integerTooLong

/-- The conditions of a job and of its steps. -/
def Job.conditions (j : Job) : List String :=
  j.condition :: j.steps.map Step.condition

/-- What is reported of a condition in some data: nothing where it is absent, else its truth, where
it counts as true for the value true alone, with its trace, or with its fault where it has no value.
-/
structure Reported (data : Context) (expression : String) (verdict : Option Condition) : Prop where
  absent : expression = "" → verdict = none
  present : expression ≠ "" → ∃ r, verdict = some r ∧ r.expression = expression ∧
    (∀ outcome, Expr.evaluate data.lookup expression = .ok outcome →
      (r.value = true ↔ outcome.value = .bool true) ∧ r.trace = outcome.trace) ∧
    ∀ fault, Expr.evaluate data.lookup expression = .error fault →
      r.value = false ∧ r.trace = "error: " ++ fault.message

section Judging

variable {c : Context} {expression : String}

theorem not_overflows_empty : ¬c.Overflows "" := by
  have refused : Expr.evaluate c.lookup "" = .error (.badSyntax ⟨.empty, none⟩ "") := rfl
  rintro (large | long)
  · cases refused.symm.trans large
  · cases refused.symm.trans long

theorem exists_judge_iff :
    (∃ verdict, judge c expression = .ok verdict) ↔ ¬c.Overflows expression := by
  unfold Context.Overflows judge
  cases Expr.evaluate c.lookup expression with
  | ok outcome => simp
  | error fault => cases fault <;> simp

theorem exists_judge?_iff :
    (∃ verdict, judge? c expression = .ok verdict) ↔ ¬c.Overflows expression := by
  by_cases absent : expression = ""
  · subst absent
    exact ⟨fun _ => not_overflows_empty, fun _ => ⟨none, rfl⟩⟩
  · rw [← exists_judge_iff, judge?, if_neg absent]
    cases judge c expression <;> simp [Except.map]

theorem exists_planStep_iff {s : Step} :
    (∃ sp, planStep c s = .ok sp) ↔ ¬c.Overflows s.condition := by
  rw [← exists_judge?_iff, planStep]
  cases judge? c s.condition <;> simp [bind, Except.bind, pure, Except.pure]

theorem exists_planJob_iff {name : String} {j : Job} :
    (∃ v, planJob c name j = .ok v) ↔ ∀ e ∈ j.conditions, ¬c.Overflows e := by
  rw [Job.conditions, List.forall_mem_cons, List.forall_mem_map]
  constructor
  · rintro ⟨v, planned⟩
    obtain ⟨condition, judged, planned⟩ := bind_eq_ok_iff.mp planned
    obtain ⟨steps, read, -⟩ := bind_eq_ok_iff.mp planned
    exact ⟨exists_judge?_iff.mp ⟨condition, judged⟩, fun s member =>
      exists_planStep_iff.mp (exists_mapM_eq_ok_iff.mp ⟨steps, read⟩ s member)⟩
  · rintro ⟨own, each⟩
    obtain ⟨condition, judged⟩ := exists_judge?_iff.mpr own
    obtain ⟨steps, read⟩ := exists_mapM_eq_ok_iff.mpr fun s member =>
      exists_planStep_iff.mpr (each s member)
    exact ⟨_, bind_eq_ok_iff.mpr ⟨condition, judged, bind_eq_ok_iff.mpr ⟨steps, read, rfl⟩⟩⟩

theorem reported_of_judge {r : Condition} (judged : judge c expression = .ok r) :
    r.expression = expression ∧
      (∀ outcome, Expr.evaluate c.lookup expression = .ok outcome →
        (r.value = true ↔ outcome.value = .bool true) ∧ r.trace = outcome.trace) ∧
      ∀ fault, Expr.evaluate c.lookup expression = .error fault →
        r.value = false ∧ r.trace = "error: " ++ fault.message := by
  have truth := value_of_judge judged
  simp only [judge] at judged
  cases evaluated : Expr.evaluate c.lookup expression with
  | ok outcome =>
    rw [evaluated] at judged
    cases judged
    refine ⟨rfl, ?_, by simp⟩
    rintro _ ⟨⟩
    exact ⟨by simpa [Context.Satisfies, evaluated] using truth, rfl⟩
  | error fault =>
    have reported : r = ⟨expression, false, "error: " ++ fault.message⟩ := by
      rw [evaluated] at judged
      cases fault with
      | badSyntax | call => exact (Except.ok.inj judged).symm
      | integerTooLarge | integerTooLong => cases judged
    subst reported
    refine ⟨rfl, by simp, ?_⟩
    rintro _ ⟨⟩
    exact ⟨rfl, rfl⟩

theorem reported_of_judge? {verdict : Option Condition}
    (judged : judge? c expression = .ok verdict) : Reported c expression verdict := by
  by_cases absent : expression = ""
  · rw [judge?, if_pos absent] at judged
    exact ⟨fun _ => (Except.ok.inj judged).symm, fun present => absurd absent present⟩
  · rw [judge?, if_neg absent] at judged
    refine ⟨fun empty => absurd empty absent, fun _ => ?_⟩
    cases same : judge c expression with
    | error fault =>
      rw [same] at judged
      cases judged
    | ok r =>
      rw [same] at judged
      exact ⟨r, (Except.ok.inj judged).symm, reported_of_judge same⟩

theorem reported_of_planStep {s : Step} {sp : StepPlan} (planned : planStep c s = .ok sp) :
    Reported c s.condition sp.condition := by
  obtain ⟨condition, judged, planned⟩ := bind_eq_ok_iff.mp planned
  cases planned
  exact reported_of_judge? judged

theorem reported_of_planJob {name : String} {j : Job} {v : JobPlan}
    (planned : planJob c name j = .ok v) :
    Reported c j.condition v.condition ∧
      List.Forall₂ (fun s sp => Reported c s.condition sp.condition) j.steps v.steps := by
  obtain ⟨condition, judged, planned⟩ := bind_eq_ok_iff.mp planned
  obtain ⟨steps, read, planned⟩ := bind_eq_ok_iff.mp planned
  cases planned
  exact ⟨reported_of_judge? judged,
    (mapM_eq_ok_iff.mp read).imp fun _ _ => reported_of_planStep⟩

end Judging

section Recorded

variable {c : Context}

theorem Completion.plain_lookup (done : Option Completion) (statusName : String)
    (segments : List String) :
    ((done.bind fun d => d.lookup statusName segments).getD .null = .null ∨
      ∃ s, (done.bind fun d => d.lookup statusName segments).getD .null = .text s) := by
  cases done with
  | none => exact .inl rfl
  | some d =>
    simp only [Option.bind_some, Completion.lookup]
    split
    · split
      · exact .inr ⟨_, rfl⟩
      · exact .inl rfl
    · cases d.outputs.get? _ with
      | none => exact .inl rfl
      | some s => exact .inr ⟨s, rfl⟩
    · exact .inl rfl

/-- The record of a job is no number. -/
theorem sameSize_recordJob (name status : String) (outputs : Bindings String) (path : String) :
    Expr.SameSize (((c.recordJob name status outputs).lookup path).getD .null)
      ((c.lookup path).getD .null) := by
  simp only [Context.lookup, Context.lookupSegments]
  split
  case h_5 =>
    exact Expr.sameSize_of_text (Completion.plain_lookup _ _ _) (Completion.plain_lookup _ _ _)
  all_goals exact ⟨rfl, rfl⟩

theorem overflows_recordJob_iff (name status : String) (outputs : Bindings String)
    (expression : String) :
    (c.recordJob name status outputs).Overflows expression ↔ c.Overflows expression := by
  have same (fault : Expr.Fault) :
      Expr.evaluate (c.recordJob name status outputs).lookup expression = .error fault ↔
        Expr.evaluate c.lookup expression = .error fault :=
    Expr.evaluate_eq_error_iff fun path _ => sameSize_recordJob name status outputs path
  exact or_congr (same _) (same _)

theorem exists_planJobs_iff {jobs : Bindings Job} {order : List String} :
    (∃ result, planJobs jobs c order = .ok result) ↔
      ∀ name ∈ order, ∀ j, jobs.get? name = some j → ∀ e ∈ j.conditions, ¬c.Overflows e := by
  induction order generalizing c with
  | nil => simp [planJobs]
  | cons name r ih =>
    rw [List.forall_mem_cons]
    cases found : jobs.get? name with
    | none => simp [planJobs, found, ih]
    | some j =>
      simp only [planJobs, found, Option.some.injEq, forall_eq']
      constructor
      · rintro ⟨result, planned⟩
        obtain ⟨plan, judged, planned⟩ := bind_eq_ok_iff.mp planned
        obtain ⟨rest, others, -⟩ := bind_eq_ok_iff.mp planned
        have later := ih.mp ⟨rest, others⟩
        simp only [overflows_recordJob_iff] at later
        exact ⟨exists_planJob_iff.mp ⟨plan, judged⟩, later⟩
      · rintro ⟨own, later⟩
        obtain ⟨plan, judged⟩ : ∃ plan, planJob c name j = .ok plan := exists_planJob_iff.mpr own
        obtain ⟨rest, others⟩ :
            ∃ rest, planJobs jobs (c.recordJob name plan.status ∅) r = .ok rest := by
          rw [ih]
          simpa only [overflows_recordJob_iff] using later
        exact ⟨_, bind_eq_ok_iff.mpr ⟨plan, judged, bind_eq_ok_iff.mpr ⟨rest, others, rfl⟩⟩⟩

end Recorded

variable {w : Workflow} {c : Context}

theorem Workflow.exists_order_iff :
    (∃ order, w.order = .ok order) ↔ ¬w.MissesJob ∧ ¬IsCyclic w.Needs := by
  constructor
  · rintro ⟨order, ordered⟩
    obtain ⟨complete, sorted⟩ := Workflow.isOrder_of_order ordered
    exact ⟨complete, sorted.not_isCyclic fun _ _ => Workflow.mem_keys_of_needs⟩
  · rintro ⟨complete, acyclic⟩
    cases ordered : w.order with
    | ok order => exact ⟨order, rfl⟩
    | error fault =>
      obtain ⟨job, dep, -, needed, missing⟩ | ⟨-, path, -, cycle⟩ :=
        Workflow.fault_of_order ordered
      · exact absurd ⟨job, dep, needed, missing⟩ complete
      · exact absurd cycle.isCyclic acyclic

/-- A workflow is planned exactly if its jobs can be ordered and none of its conditions meets an
integer that is too large or too long. -/
theorem Workflow.exists_plan_iff :
    (∃ p, w.plan c = .ok p) ↔ ¬w.MissesJob ∧ ¬IsCyclic w.Needs ∧
      ∀ name j, w.jobs.get? name = some j → ∀ e ∈ j.conditions, ¬c.Overflows e := by
  rw [← and_assoc, ← Workflow.exists_order_iff, Workflow.plan]
  cases ordered : w.order with
  | error fault => simp
  | ok order =>
    have known (name : String) : name ∈ order ↔ ∃ j, w.jobs.get? name = some j := by
      rw [(Workflow.isOrder_of_order ordered).2.mem_iff, Bindings.mem_keys_iff]
    have possible : (∃ result, planJobs w.jobs c order = .ok result) ↔
        ∀ name j, w.jobs.get? name = some j → ∀ e ∈ j.conditions, ¬c.Overflows e := by
      rw [exists_planJobs_iff]
      constructor
      · exact fun each name j found => each name ((known name).mpr ⟨j, found⟩) j found
      · exact fun each name _ j found => each name j found
    rw [← possible]
    simp only [Except.ok.injEq, exists_eq', true_and]
    constructor
    · rintro ⟨p, planned⟩
      obtain ⟨result, planned, -⟩ := bind_eq_ok_iff.mp planned
      exact ⟨result, planned⟩
    · rintro ⟨result, planned⟩
      exact ⟨_, bind_eq_ok_iff.mpr ⟨result, planned, rfl⟩⟩

/-- Two jobs without needs, one of which compares a number by size. -/
def Workflow.comparing : Workflow where
  name := "comparing"
  on := .text "push"
  env := ∅
  jobs := .ofList [
    ("big", { (default : Job) with condition := "matrix.n > null" }),
    ("other", default)]

/-- Data with an integer beyond the range of doubles. -/
def Context.oversized : Context :=
  { Context.empty with matrix := .ofList [("n", .int (Number.tenTo 309))] }

set_option maxRecDepth 10000 in
theorem overflows_oversized : Context.oversized.Overflows "matrix.n > null" := by
  have read : Expr.parse (Expr.stripWrapper "matrix.n > null") =
      .ok (.binary .gt (.path "matrix.n") (.literal .null)) := by cbv
  have some : Expr.stripWrapper "matrix.n > null" ≠ "" := by cbv
  have found (v : Value) :
      { Context.empty with matrix := .ofList [("n", v)] }.lookup "matrix.n" = .some v := by cbv
  have writable : (Value.int (Number.tenTo 309)).isWritable = true := by decide +kernel
  have large : Number.ofInt? (Number.tenTo 309) = none :=
    Option.isNone_iff_eq_none.mp (by decide +kernel)
  have compared : Expr.Operator.gt.apply (.int (Number.tenTo 309)) .null =
      .error .integerTooLarge := by
    simp only [Expr.Operator.apply, Expr.compare, Expr.asFloat, large]
    rfl
  left
  have budget : Expr.depthLimit = 998 + 1 + 1 := rfl
  simp only [Expr.evaluate, if_neg some, read, budget, Expr.eval, Context.oversized, found,
    Option.getD_some, writable, if_true, Expr.Outcome.of, bind, Except.bind, compared]

end Drydock
