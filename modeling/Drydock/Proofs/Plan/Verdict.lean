import Drydock.Proofs.Plan.Job
import Drydock.Proofs.Workflow.Order
import Mathlib

set_option autoImplicit false
set_option relaxedAutoImplicit false

/-!
The verdicts of a plan. Jobs are judged in order, each in the data that the verdicts before it leave.
Main statement: a job would run exactly if all it needs would run and its condition is absent or holds
in that data, and the reason of a job that would not run is its condition or else its first unmet need.
-/

namespace Drydock

variable {w : Workflow} {c : Context} {p : Plan}

section Recorded

variable {plans : List JobPlan} {job : String}

theorem get?_recordPlans_of_notMem (fresh : job ∉ plans.map JobPlan.name) :
    (c.recordPlans plans).jobs.get? job = c.jobs.get? job := by
  induction plans generalizing c with
  | nil => rfl
  | cons v r ih =>
    rw [List.map_cons, List.mem_cons, not_or] at fresh
    calc (c.recordPlans (v :: r)).jobs.get? job
        = (c.recordJob v.name v.status ∅).jobs.get? job := ih fresh.2
      _ = c.jobs.get? job := by rw [Context.recordJob, Bindings.get?_insert, if_neg fresh.1]

theorem get?_recordPlans_of_mem {v : JobPlan} (nodup : (plans.map JobPlan.name).Nodup)
    (member : v ∈ plans) : (c.recordPlans plans).jobs.get? v.name = some ⟨v.status, ∅⟩ := by
  induction plans generalizing c with
  | nil => cases member
  | cons x r ih =>
    rw [List.map_cons, List.nodup_cons] at nodup
    rcases List.mem_cons.mp member with rfl | member
    · calc (c.recordPlans (v :: r)).jobs.get? v.name
          = (c.recordJob v.name v.status ∅).jobs.get? v.name := get?_recordPlans_of_notMem nodup.1
        _ = some ⟨v.status, ∅⟩ := by rw [Context.recordJob, Bindings.get?_insert, if_pos rfl]
    · exact ih nodup.2 member

theorem succeeded_recordPlans_iff {v : JobPlan} (nodup : (plans.map JobPlan.name).Nodup)
    (member : v ∈ plans) : (c.recordPlans plans).Succeeded v.name ↔ v.wouldRun = true := by
  rw [Context.Succeeded, get?_recordPlans_of_mem nodup member, ← JobPlan.status_eq_success_iff]
  simp

end Recorded

theorem planJobs_eq_ok {jobs : Bindings Job} {order : List String} {plans : List JobPlan}
    {after : Context} (known : ∀ name ∈ order, name ∈ jobs.keys)
    (planned : planJobs jobs c order = .ok (plans, after)) :
    plans.map JobPlan.name = order ∧ after = c.recordPlans plans ∧
      ∀ earlier v later, plans = earlier ++ v :: later →
        ∃ j, jobs.get? v.name = some j ∧ planJob (c.recordPlans earlier) v.name j = .ok v := by
  induction order generalizing c plans with
  | nil =>
    cases planned
    refine ⟨rfl, rfl, ?_⟩
    intro earlier v later split
    simp at split
  | cons name r ih =>
    obtain ⟨j, found⟩ := Bindings.mem_keys_iff.mp (known name List.mem_cons_self)
    simp only [planJobs, found] at planned
    obtain ⟨first, judged, planned⟩ := bind_eq_ok_iff.mp planned
    obtain ⟨rest, others, planned⟩ := bind_eq_ok_iff.mp planned
    cases planned
    have named := (judged_of_planJob judged).name
    obtain ⟨names, context, verdicts⟩ :=
      ih (fun x member => known x (List.mem_cons_of_mem _ member)) others
    rw [← named] at context verdicts
    refine ⟨by rw [List.map_cons, names, named], context, ?_⟩
    intro earlier v later split
    rcases List.cons_eq_append_iff.mp split with ⟨rfl, same⟩ | ⟨earlier', rfl, same⟩
    · obtain ⟨rfl, -⟩ := List.cons.inj same
      rw [named]
      exact ⟨j, found, judged⟩
    · exact verdicts earlier' v later same

/-- A plan has its jobs in order, and each is planned in the data that those before it leave. -/
theorem planned_of_plan (planned : w.plan c = .ok p) :
    w.order = .ok p.order ∧ p.context = c.recordPlans p.jobs ∧
      ∀ earlier v later, p.jobs = earlier ++ v :: later →
        ∃ j, w.jobs.get? v.name = some j ∧ planJob (c.recordPlans earlier) v.name j = .ok v := by
  unfold Workflow.plan at planned
  cases h : w.order with
  | error fault =>
    rw [h] at planned
    cases planned
  | ok order =>
    rw [h] at planned
    obtain ⟨⟨plans, after⟩, judged, planned⟩ := bind_eq_ok_iff.mp planned
    cases planned
    obtain ⟨-, ordered⟩ := Workflow.isOrder_of_order h
    have known : ∀ name ∈ order, name ∈ w.jobs.keys := fun name => (ordered.mem_iff name).mp
    obtain ⟨names, context, verdicts⟩ := planJobs_eq_ok known judged
    subst names
    exact ⟨rfl, context, verdicts⟩

/-- A plan has its jobs in order, and each verdict is made in the data that those before it leave. -/
structure Foreseen (w : Workflow) (c : Context) (p : Plan) : Prop where
  order : w.order = .ok p.order
  isOrder : IsOrder w.Needs w.jobs.keys p.order
  context : p.context = c.recordPlans p.jobs
  judged : ∀ earlier v later, p.jobs = earlier ++ v :: later →
    ∃ j, w.jobs.get? v.name = some j ∧ Judged (c.recordPlans earlier) v.name j v

theorem foreseen_of_plan (planned : w.plan c = .ok p) : Foreseen w c p := by
  obtain ⟨order, context, verdicts⟩ := planned_of_plan planned
  refine ⟨order, (Workflow.isOrder_of_order order).2, context, ?_⟩
  intro earlier v later split
  obtain ⟨j, found, judged⟩ := verdicts earlier v later split
  exact ⟨j, found, judged_of_planJob judged⟩

/-- A job of this name would run. -/
def Plan.WouldRun (p : Plan) (job : String) : Prop :=
  ∃ v ∈ p.jobs, v.name = job ∧ v.wouldRun = true

namespace Foreseen

variable {earlier later : List JobPlan} {v : JobPlan} {job dep : String}

theorem names_nodup (foreseen : Foreseen w c p) : (p.jobs.map JobPlan.name).Nodup :=
  foreseen.isOrder.nodup

theorem wouldRun_iff_of_mem (foreseen : Foreseen w c p) (member : v ∈ p.jobs) :
    p.WouldRun v.name ↔ v.wouldRun = true := by
  constructor
  · rintro ⟨u, found, same, runs⟩
    obtain rfl := List.inj_on_of_nodup_map foreseen.names_nodup found member same
    exact runs
  · exact fun runs => ⟨v, member, rfl, runs⟩

theorem exists_earlier (foreseen : Foreseen w c p) (split : p.jobs = earlier ++ v :: later)
    (needed : w.Needs v.name dep) : ∃ d ∈ earlier, d.name = dep := by
  have names : p.order = earlier.map JobPlan.name ++ v.name :: later.map JobPlan.name := by
    rw [Plan.order, split, List.map_append, List.map_cons]
  have before := foreseen.isOrder.inOrder _ _ _ names dep needed
  exact List.mem_map.mp before

theorem earlier_nodup (foreseen : Foreseen w c p) (split : p.jobs = earlier ++ v :: later) :
    (earlier.map JobPlan.name).Nodup := by
  have nodup := foreseen.names_nodup
  rw [split, List.map_append] at nodup
  exact (List.nodup_append.mp nodup).1

/-- What is recorded for a need when a job is judged is the verdict on the need, whatever was
recorded before. -/
theorem succeeded_iff (foreseen : Foreseen w c p) (split : p.jobs = earlier ++ v :: later)
    (needed : w.Needs v.name dep) : (c.recordPlans earlier).Succeeded dep ↔ p.WouldRun dep := by
  obtain ⟨d, found, rfl⟩ := foreseen.exists_earlier split needed
  have member : d ∈ p.jobs := split ▸ List.mem_append_left _ found
  rw [succeeded_recordPlans_iff (foreseen.earlier_nodup split) found,
    foreseen.wouldRun_iff_of_mem member]

theorem wouldRun_iff (foreseen : Foreseen w c p) (split : p.jobs = earlier ++ v :: later) {j : Job}
    (found : w.jobs.get? v.name = some j) (judged : Judged (c.recordPlans earlier) v.name j v) :
    v.wouldRun = true ↔
      (∀ dep ∈ j.dependencies, p.WouldRun dep) ∧ (c.recordPlans earlier).Admits j.condition := by
  rw [judged.wouldRun]
  refine and_congr_left fun _ => forall₂_congr fun dep needed => ?_
  exact foreseen.succeeded_iff split ⟨j, found, needed⟩

theorem wouldRun_of_needs (foreseen : Foreseen w c p) (runs : p.WouldRun job)
    (needed : w.Needs job dep) : p.WouldRun dep := by
  obtain ⟨v, member, rfl, runs⟩ := runs
  obtain ⟨earlier, later, split⟩ := List.append_of_mem member
  obtain ⟨j, found, judged⟩ := foreseen.judged earlier v later split
  obtain ⟨j', found', needed⟩ := needed
  obtain rfl := Option.some.inj (found.symm.trans found')
  exact ((foreseen.wouldRun_iff split found judged).mp runs).1 dep needed

theorem wouldRun_of_transGen (foreseen : Foreseen w c p) (runs : p.WouldRun job)
    (needed : Relation.TransGen w.Needs job dep) : p.WouldRun dep := by
  induction needed with
  | single first => exact foreseen.wouldRun_of_needs runs first
  | tail _ last ih => exact foreseen.wouldRun_of_needs ih last

theorem reason_of_unmet (foreseen : Foreseen w c p) (split : p.jobs = earlier ++ v :: later)
    {j : Job} (found : w.jobs.get? v.name = some j) {reason : String}
    (unmet : unmetNeed? (c.recordPlans earlier) j.dependencies = some reason) :
    ∃ met dep rest, j.dependencies = met ++ dep :: rest ∧ (∀ d ∈ met, p.WouldRun d) ∧
      ¬ p.WouldRun dep ∧ reason = s!"dependency '{dep}' was skipped" := by
  obtain ⟨met, dep, rest, parts, succeeded, failed, text⟩ := unmetNeed?_eq_some unmet
  have needs : ∀ x ∈ met ++ dep :: rest, w.Needs v.name x := fun x member =>
    ⟨j, found, parts ▸ member⟩
  have needed : w.Needs v.name dep := needs dep (List.mem_append_right _ List.mem_cons_self)
  refine ⟨met, dep, rest, parts, ?_, ?_, ?_⟩
  · intro x member
    exact (foreseen.succeeded_iff split (needs x (List.mem_append_left _ member))).mp
      (succeeded x member)
  · exact fun runs => failed ((foreseen.succeeded_iff split needed).mpr runs)
  · obtain ⟨d, before, rfl⟩ := foreseen.exists_earlier split needed
    have nodup := foreseen.earlier_nodup split
    rw [succeeded_recordPlans_iff nodup before] at failed
    have status : d.status = statusSkipped :=
      JobPlan.status_eq_skipped (Bool.eq_false_iff.mpr failed)
    have recorded := get?_recordPlans_of_mem (c := c) nodup before
    rw [status] at recorded
    have joined : "' was " ++ statusSkipped = "' was skipped" := by decide
    rw [text _ recorded (by decide), ← joined]
    simp only [toString, String.append_assoc]

theorem conditionFalse_ne_empty : conditionFalse ≠ "" := by decide

theorem skipReason_eq_empty_iff (foreseen : Foreseen w c p)
    (split : p.jobs = earlier ++ v :: later) {j : Job} (found : w.jobs.get? v.name = some j)
    (judged : Judged (c.recordPlans earlier) v.name j v) :
    v.skipReason = "" ↔ v.wouldRun = true := by
  by_cases admits : (c.recordPlans earlier).Admits j.condition
  · have runs : v.wouldRun = true ↔ unmetNeed? (c.recordPlans earlier) j.dependencies = none := by
      rw [judged.wouldRun, and_iff_left admits, unmetNeed?_eq_none_iff]
    rw [judged.admitted admits, runs]
    cases h : unmetNeed? (c.recordPlans earlier) j.dependencies with
    | none => simp
    | some reason =>
      obtain ⟨met, dep, rest, -, -, -, rfl⟩ := foreseen.reason_of_unmet split found h
      simp [String.append_eq_empty_iff, toString]
  · have refused : v.wouldRun = false :=
      Bool.eq_false_iff.mpr fun runs => admits (judged.wouldRun.mp runs).2
    simp [judged.refused admits, refused, conditionFalse_ne_empty]

end Foreseen

/-- What the verdict on a job of a plan comes to, made in the given data. -/
structure Verdict (w : Workflow) (p : Plan) (data : Context) (j : Job) (v : JobPlan) : Prop where
  steps : List.Forall₂ (fun s sp => planStep data s = .ok sp) j.steps v.steps
  wouldRun_iff : v.wouldRun = true ↔
    (∀ dep ∈ j.dependencies, p.WouldRun dep) ∧ data.Admits j.condition
  wouldRun_of_transGen : v.wouldRun = true →
    ∀ dep, Relation.TransGen w.Needs v.name dep → p.WouldRun dep
  skipReason_eq_empty_iff : v.skipReason = "" ↔ v.wouldRun = true
  skipReason_of_condition : ¬ data.Admits j.condition →
    v.skipReason = "condition evaluated to false"
  skipReason_of_need : v.wouldRun = false → data.Admits j.condition →
    ∃ met dep rest, j.dependencies = met ++ dep :: rest ∧ (∀ d ∈ met, p.WouldRun d) ∧
      ¬ p.WouldRun dep ∧ v.skipReason = s!"dependency '{dep}' was skipped"

/-- A plan has one verdict for each job, in the order of need. Each of them is made in the initial
data with the verdicts before it recorded on top, and nothing that was recorded initially counts for
a need. -/
theorem Workflow.plan_verdicts (planned : w.plan c = .ok p) :
    w.order = .ok p.order ∧ IsOrder w.Needs w.jobs.keys p.order ∧
      ∀ earlier v later, p.jobs = earlier ++ v :: later →
        ∃ j, w.jobs.get? v.name = some j ∧ Verdict w p (c.recordPlans earlier) j v := by
  have foreseen := foreseen_of_plan planned
  refine ⟨foreseen.order, foreseen.isOrder, ?_⟩
  intro earlier v later split
  obtain ⟨j, found, judged⟩ := foreseen.judged earlier v later split
  have member : v ∈ p.jobs := split ▸ List.mem_append_right _ List.mem_cons_self
  have runs := foreseen.wouldRun_iff split found judged
  refine ⟨j, found, judged.steps, runs, ?_, foreseen.skipReason_eq_empty_iff split found judged,
    judged.refused, ?_⟩
  · intro would dep needed
    exact foreseen.wouldRun_of_transGen ⟨v, member, rfl, would⟩ needed
  · intro refused admits
    cases h : unmetNeed? (c.recordPlans earlier) j.dependencies with
    | none =>
      have would := judged.wouldRun.mpr ⟨unmetNeed?_eq_none_iff.mp h, admits⟩
      rw [refused] at would
      cases would
    | some reason =>
      have text : v.skipReason = reason := by rw [judged.admitted admits, h, Option.getD_some]
      rw [text]
      exact foreseen.reason_of_unmet split found h

section Sample

private def sampleJob (needs : List String) (condition : String) (steps : List Step) : Job :=
  { (default : Job) with needs := .many needs, condition := condition, steps := steps }

private def sampleStep (name condition : String) : Step :=
  { (default : Step) with name := name, condition := condition, run := "make" }

/-- A workflow with a job that its condition refuses, a job that needs that one, and a job that would
run after another and whose first step reads the record of a job. -/
def Workflow.sample : Workflow where
  name := "sample"
  on := .text "push"
  env := ∅
  jobs := .ofList [
    ("test", sampleJob ["lint"] "" []),
    ("lint", sampleJob [] "false" []),
    ("report", sampleJob ["setup"] ""
      [sampleStep "summary" "jobs.lint.status == 'skipped'", sampleStep "upload" "false"]),
    ("setup", sampleJob [] "" [])]

/-- Data that hold a record of a job from some other time. -/
def Context.sample : Context :=
  Context.empty.recordJob "lint" statusSuccess ∅

set_option maxRecDepth 10000 in
theorem plan_sample :
    (Workflow.sample.plan .sample).toOption.map (fun p => p.jobs.map fun v =>
        (v.name, v.wouldRun, v.skipReason)) =
      some [("lint", false, "condition evaluated to false"),
        ("test", false, "dependency 'lint' was skipped"), ("setup", true, ""),
        ("report", true, "")] := by
  cbv

theorem Workflow.plan_verdicts_sample :
    ∃ p, Workflow.sample.plan .sample = .ok p ∧
      p.jobs.map (fun v => (v.name, v.wouldRun, v.skipReason)) =
        [("lint", false, "condition evaluated to false"),
          ("test", false, "dependency 'lint' was skipped"), ("setup", true, ""),
          ("report", true, "")] ∧
      Workflow.sample.order = .ok p.order ∧
      IsOrder Workflow.sample.Needs Workflow.sample.jobs.keys p.order ∧
      ∀ earlier v later, p.jobs = earlier ++ v :: later → ∃ j,
        Workflow.sample.jobs.get? v.name = some j ∧
          Verdict Workflow.sample p (Context.sample.recordPlans earlier) j v := by
  have computed := plan_sample
  cases planned : Workflow.sample.plan .sample with
  | error fault =>
    rw [planned] at computed
    cases computed
  | ok p =>
    rw [planned] at computed
    exact ⟨p, rfl, Option.some.inj computed, Workflow.plan_verdicts planned⟩

end Sample

end Drydock
