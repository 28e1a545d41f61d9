import Drydock.Proofs.Expr.Paths
import Drydock.Proofs.Run.Agreement

set_option autoImplicit false
set_option relaxedAutoImplicit false

/-!
How far a plan foresees the steps of a run. Main statement: a step whose condition reads only paths
that a run leaves as they were foreseen is done in the run exactly if the plan says that it would run.
-/

namespace Drydock

open Run (AtStep)

/-- A run may answer otherwise than foreseen for variables, for records of steps and for outputs of
jobs; for all other segments it may not. -/
def Context.isForeseeable : List String → Bool
  | "env" :: _ => false
  | "steps" :: _ => false
  | ["jobs", _, "outputs", _] => false
  | _ => true

/-- A condition reads only what is foreseeable. -/
def Context.Foreseeable (condition : String) : Prop :=
  ∀ path ∈ Expr.paths condition, Context.isForeseeable (Context.segments path) = true

example : Context.Foreseeable "" := by
  have none : Expr.paths "" = [] := by cbv
  simp [Context.Foreseeable, none]

section Lookup

variable {planned live : Context}

theorem Completion.lookup_congr {a b : Completion} (same : a.status = b.status)
    {statusName : String} {segments : List String} (plain : ∀ name, segments ≠ ["outputs", name]) :
    a.lookup statusName segments = b.lookup statusName segments := by
  unfold Completion.lookup
  split
  · rw [same]
  · exact absurd rfl (plain _)
  · rfl

theorem Context.Mirrors.lookupJob (mirrors : planned.Mirrors live) {job : String}
    {segments : List String} (plain : ∀ name, segments ≠ ["outputs", name]) :
    ((live.jobs.get? job).bind fun done => done.lookup "status" segments) =
      (planned.jobs.get? job).bind fun done => done.lookup "status" segments := by
  have same := mirrors.status job
  cases recorded : live.jobs.get? job with
  | none =>
    rw [recorded] at same
    rw [Option.map_eq_none_iff.mp same.symm]
  | some done =>
    rw [recorded] at same
    obtain ⟨foreseen, found, status⟩ := Option.map_eq_some_iff.mp same.symm
    rw [found]
    exact Completion.lookup_congr status.symm plain

theorem Context.Mirrors.lookupSegments (mirrors : planned.Mirrors live) {segments : List String}
    (foreseeable : Context.isForeseeable segments = true) :
    live.lookupSegments segments = planned.lookupSegments segments := by
  unfold Context.lookupSegments
  split
  · rw [mirrors.github]
  · cases foreseeable
  · rw [mirrors.secrets]
  · rw [mirrors.matrix]
  · refine mirrors.lookupJob ?_
    rintro name rfl
    cases foreseeable
  · cases foreseeable
  · rfl

theorem Context.Mirrors.judge? (mirrors : planned.Mirrors live) {condition : String}
    (foreseeable : Context.Foreseeable condition) :
    Drydock.judge? live condition = Drydock.judge? planned condition := by
  have same : Expr.evaluate live.lookup condition = Expr.evaluate planned.lookup condition :=
    Expr.evaluate_congr fun path member => mirrors.lookupSegments (foreseeable path member)
  simp only [Drydock.judge?, judge, same]

end Lookup

section Turn

variable {w : World} {s : Step} {sp : StepPlan} {c : Context} {m : Machine}

theorem admitted_of_planStep (planned : planStep c s = .ok sp)
    (same : judge? m.context s.condition = judge? c s.condition) :
    Run.admitted s m = (.ok sp.wouldRun, m) := by
  obtain ⟨condition, judged, planned⟩ := bind_eq_ok_iff.mp planned
  cases planned
  simp only [Run.admitted, same, judged]

end Turn

theorem Run.AtStep.mirrors {w : World} {declared : Bindings Job} {plans earlier : List JobPlan}
    {v : JobPlan} {j : Job} {passed : List Step} {s : Step} {m₀ m : Machine}
    (come : AtStep w declared plans m₀ earlier v j passed s m) :
    (m₀.context.recordPlans earlier).Mirrors m.context := by
  obtain ⟨-, -, start, ⟨-, -, done, ran⟩, passing⟩ := come
  have begun := (Run.done_of_jobs ran).mirrors m₀.context (.refl _)
  have turns := Run.keeps_steps w j.steps.length 1 passed (Run.openJob v.name j start).2
  rw [passing] at turns
  exact (begun.turns (Run.keeps_openJob v.name j start)).turns turns

set_option maxRecDepth 10000 in
theorem foreseeable_sample {name : String} {j : Job} (found : Workflow.sample.jobs.get? name = some j)
    {s : Step} (member : s ∈ j.steps) : Context.Foreseeable s.condition := by
  have computed : (Workflow.sample.jobs.entries.all fun e => e.2.steps.all fun s =>
      (Expr.paths s.condition).all fun path => Context.isForeseeable (Context.segments path)) =
        true := by
    cbv
  simp only [List.all_eq_true] at computed
  exact computed (name, j) (Bindings.get?_eq_some_iff.mp found) s member

end Drydock
