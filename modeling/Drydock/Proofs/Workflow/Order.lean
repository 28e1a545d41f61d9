import Drydock.Plan
import Drydock.Proofs.Graph.Walk

set_option autoImplicit false
set_option relaxedAutoImplicit false

/-!
The order of the jobs of a workflow. Main statement: a workflow has an order exactly if all that is
needed is declared and no job needs itself by way of others; what there is instead of an order names
a need that is not declared, or else a cycle.
-/

namespace Drydock.Workflow

/-- A job of a workflow needs another. -/
def Needs (w : Workflow) (job dep : String) : Prop :=
  ∃ j, w.jobs.get? job = some j ∧ dep ∈ j.dependencies

/-- Some job needs a job that is not declared. -/
def MissesJob (w : Workflow) : Prop :=
  ∃ job dep, w.Needs job dep ∧ dep ∉ w.jobs.keys

/-- The jobs of a workflow with what they need. -/
def declarations (w : Workflow) : List (String × List String) :=
  w.jobs.entries.map fun e => (e.1, e.2.dependencies)

variable {w : Workflow}

theorem map_fst_declarations (w : Workflow) : w.declarations.map Prod.fst = w.jobs.keys := by
  simp [declarations, Bindings.keys, Function.comp_def]

theorem needs_iff_declared {job dep : String} :
    w.Needs job dep ↔ ∃ needs, (job, needs) ∈ w.declarations ∧ dep ∈ needs := by
  simp only [Needs, declarations, List.mem_map, Prod.mk.injEq]
  constructor
  · rintro ⟨j, found, needed⟩
    exact ⟨j.dependencies, ⟨(job, j), Bindings.get?_eq_some_iff.mp found, rfl, rfl⟩, needed⟩
  · rintro ⟨_, ⟨⟨_, j⟩, found, rfl, rfl⟩, needed⟩
    exact ⟨j, Bindings.get?_eq_some_iff.mpr found, needed⟩

theorem mem_keys_of_needs {job dep : String} (needed : w.Needs job dep) : job ∈ w.jobs.keys := by
  obtain ⟨j, found, -⟩ := needed
  exact Bindings.mem_keys_iff.mpr ⟨j, found⟩

private theorem needs_eq_of_declares {g : Graph} (declared : g.Declares w.declarations) :
    g.Needs = w.Needs := by
  funext job dep
  rw [Graph.Needs, declared.needs_iff, needs_iff_declared]

private theorem not_missesJob_of_declares {g : Graph} (declared : g.Declares w.declarations) :
    ¬ w.MissesJob := by
  rintro ⟨job, dep, needed, missing⟩
  obtain ⟨needs, found, member⟩ := needs_iff_declared.mp needed
  rw [← map_fst_declarations] at missing
  exact missing (declared.known (job, needs) found dep member)

theorem isOrder_of_order {order : List String} (ordered : w.order = .ok order) :
    ¬ w.MissesJob ∧ IsOrder w.Needs w.jobs.keys order := by
  obtain ⟨g, built, sorted⟩ := bind_eq_ok_iff.mp ordered
  have declared : g.Declares w.declarations := Graph.declares_of_build built
  have spec := Graph.order_eq_ok sorted
  rw [needs_eq_of_declares declared, declared.keys, map_fst_declarations] at spec
  exact ⟨not_missesJob_of_declares declared, spec⟩

theorem fault_of_order {fault : GraphFault} (refused : w.order = .error fault) :
    (∃ job dep, fault = .unknown job dep w.jobs.keys ∧ w.Needs job dep ∧ dep ∉ w.jobs.keys) ∨
      ¬ w.MissesJob ∧ ∃ path, fault = .cycle path ∧ IsCycle w.Needs path := by
  rcases bind_eq_error_iff.mp refused with notBuilt | ⟨g, built, stopped⟩
  · left
    have nodup : (w.declarations.map Prod.fst).Nodup := map_fst_declarations w ▸ w.jobs.keys_nodup
    obtain ⟨⟨job, needs⟩, found, dep, member, missing, rfl⟩ := Graph.unknown_of_build nodup notBuilt
    rw [map_fst_declarations] at missing ⊢
    exact ⟨job, dep, rfl, needs_iff_declared.mpr ⟨needs, found, member⟩, missing⟩
  · right
    have declared : g.Declares w.declarations := Graph.declares_of_build built
    obtain ⟨path, same, cycle⟩ := Graph.order_eq_error declared.isComplete stopped
    rw [needs_eq_of_declares declared] at cycle
    exact ⟨not_missesJob_of_declares declared, path, same, cycle⟩

/-- The walk of the jobs always ends: with a need that is not declared if there is one, else with a
cycle if there is one, and else with an order. -/
theorem order_decides (w : Workflow) :
    (w.MissesJob → ∃ job dep, w.order = .error (.unknown job dep w.jobs.keys) ∧
      w.Needs job dep ∧ dep ∉ w.jobs.keys) ∧
    (¬ w.MissesJob → IsCyclic w.Needs → ∃ path, w.order = .error (.cycle path) ∧
      IsCycle w.Needs path) ∧
    (¬ w.MissesJob → ¬ IsCyclic w.Needs → ∃ order, w.order = .ok order ∧
      IsOrder w.Needs w.jobs.keys order) := by
  cases h : w.order with
  | ok order =>
    obtain ⟨complete, ordered⟩ := isOrder_of_order h
    have acyclic : ¬ IsCyclic w.Needs := ordered.not_isCyclic fun _ _ => mem_keys_of_needs
    exact ⟨fun missing => absurd missing complete, fun _ cyclic => absurd cyclic acyclic,
      fun _ _ => ⟨order, rfl, ordered⟩⟩
  | error fault =>
    rcases fault_of_order h with ⟨job, dep, rfl, needed, missing⟩ | ⟨complete, path, rfl, cycle⟩
    · have misses : w.MissesJob := ⟨job, dep, needed, missing⟩
      exact ⟨fun _ => ⟨job, dep, rfl, needed, missing⟩, fun complete => absurd misses complete,
        fun complete => absurd misses complete⟩
    · exact ⟨fun missing => absurd missing complete, fun _ _ => ⟨path, rfl, cycle⟩,
        fun _ acyclic => absurd cycle.isCyclic acyclic⟩

end Drydock.Workflow
