import Mathlib.Data.List.Chain
import Mathlib.Logic.Relation

set_option autoImplicit false
set_option relaxedAutoImplicit false

/-!
Orders and cycles along a relation of need. Main statements: where there is an order no job needs
itself by way of others, and a closed path is the trace of a job that does.
-/

namespace Drydock

/-- Some job needs itself, at once or by way of others. -/
def IsCyclic (needs : String → String → Prop) : Prop :=
  ∃ job, Relation.TransGen needs job job

/-- A path from a job by what is needed back to that job, past no job twice. -/
structure IsCycle (needs : String → String → Prop) (path : List String) : Prop where
  two_le_length : 2 ≤ path.length
  closed : path.head? = path.getLast?
  nodup : path.dropLast.Nodup
  linked : path.IsChain needs

/-- Each job of a list stands after all it needs. -/
def InOrder (needs : String → String → Prop) (order : List String) : Prop :=
  ∀ before job later, order = before ++ job :: later → ∀ dep, needs job dep → dep ∈ before

/-- A list of all jobs, each once and after all it needs. -/
structure IsOrder (needs : String → String → Prop) (jobs order : List String) : Prop where
  nodup : order.Nodup
  mem_iff : ∀ job, job ∈ order ↔ job ∈ jobs
  inOrder : InOrder needs order

variable {needs : String → String → Prop}

theorem inOrder_nil : InOrder needs [] := by
  intro before job later split
  simp at split

theorem InOrder.append_singleton {order : List String} {job : String} (ordered : InOrder needs order)
    (met : ∀ dep, needs job dep → dep ∈ order) : InOrder needs (order ++ [job]) := by
  intro before x later split dep needed
  rcases List.eq_nil_or_concat later with rfl | ⟨init, last, rfl⟩
  · obtain ⟨rfl, same⟩ := List.append_inj' split rfl
    obtain rfl := (List.cons.inj same).1
    exact met dep needed
  · rw [List.concat_eq_append, ← List.cons_append, ← List.append_assoc] at split
    exact ordered before x init (List.append_inj' split rfl).1 dep needed

theorem InOrder.idxOf_lt {order : List String} (ordered : InOrder needs order)
    {job dep : String} (member : job ∈ order) (needed : needs job dep) :
    order.idxOf dep < order.idxOf job := by
  obtain ⟨before, later, rfl, fresh⟩ := List.eq_append_cons_of_mem member
  have met : dep ∈ before := ordered before job later rfl dep needed
  rw [List.idxOf_append_of_mem met, List.idxOf_append_of_notMem fresh, List.idxOf_cons_self]
  exact Nat.lt_add_right _ (List.idxOf_lt_length_of_mem met)

theorem IsOrder.not_isCyclic {jobs order : List String} (ordered : IsOrder needs jobs order)
    (known : ∀ job dep, needs job dep → job ∈ jobs) : ¬ IsCyclic needs := by
  have descends : ∀ job dep, needs job dep → order.idxOf dep < order.idxOf job := by
    intro job dep needed
    exact ordered.inOrder.idxOf_lt ((ordered.mem_iff job).mpr (known job dep needed)) needed
  rintro ⟨job, circle⟩
  have below : Relation.TransGen (· > ·) (order.idxOf job) (order.idxOf job) :=
    circle.lift order.idxOf descends
  rw [Relation.transGen_eq_self] at below
  exact lt_irrefl _ below

theorem transGen_of_isChain {job dep : String} {between : List String}
    (linked : (job :: (between ++ [dep])).IsChain needs) : Relation.TransGen needs job dep := by
  induction between generalizing job with
  | nil => exact .single (List.isChain_pair.mp linked)
  | cons next between ih =>
    rw [List.cons_append, List.isChain_cons_cons] at linked
    exact .head linked.1 (ih linked.2)

theorem IsCycle.isCyclic {path : List String} (cycle : IsCycle needs path) : IsCyclic needs := by
  obtain ⟨long, closed, -, linked⟩ := cycle
  cases path with
  | nil => simp at long
  | cons job rest =>
    rcases List.eq_nil_or_concat rest with rfl | ⟨between, last, rfl⟩
    · simp at long
    · rw [List.concat_eq_append] at closed linked
      rw [List.head?_cons, ← List.cons_append, List.getLast?_concat] at closed
      obtain rfl := Option.some.inj closed
      exact ⟨job, transGen_of_isChain linked⟩

end Drydock
