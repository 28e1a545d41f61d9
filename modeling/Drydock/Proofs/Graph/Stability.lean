import Drydock.Proofs.Graph.Walk
import Mathlib

set_option autoImplicit false
set_option relaxedAutoImplicit false

/-!
Graphs whose jobs are declared in order. Main statements: jobs that are declared after all they need are
ordered as they are declared, so that the order of a graph is not changed by ordering it again; and jobs
that make a graph make one in whatever order they are declared.
-/

namespace Drydock.Graph

variable {g g' : Graph} {jobs jobs' : List (String × List String)} {outer : List Frame}
  {pending done names order : List String} {job : String}

section InOrder

/-- A job is done at once where all is done that was left to look at. -/
theorem walk_of_done (met : ∀ dep ∈ pending, dep ∈ done) :
    g.walk (⟨job, pending⟩ :: outer) done = g.walk outer (done ++ [job]) := by
  induction pending with
  | nil => rw [walk]
  | cons dep rest ih =>
    obtain ⟨first, others⟩ := List.forall_mem_cons.mp met
    rw [walk, if_pos first, ih others]

theorem visit_of_met (fresh : job ∉ done) (met : ∀ dep, g.Needs job dep → dep ∈ done) :
    g.visit done job = .ok (done ++ [job]) := by
  rw [visit, if_neg fresh, walk_of_done met, walk]

/-- Each job that is reached in order is the next one to be done. -/
theorem foldlM_visit_of_inOrder (nodup : (done ++ names).Nodup) (ordered : InOrder g.Needs (done ++ names)) :
    names.foldlM g.visit done = .ok (done ++ names) := by
  induction names generalizing done with
  | nil =>
    rw [List.append_nil]
    rfl
  | cons job names ih =>
    have fresh : job ∉ done := fun isDone =>
      (List.nodup_append.mp nodup).2.2 job isDone job List.mem_cons_self rfl
    have met : ∀ dep, g.Needs job dep → dep ∈ done := ordered done job names rfl
    rw [← List.singleton_append, ← List.append_assoc] at nodup ordered ⊢
    rw [List.singleton_append, List.foldlM_cons, visit_of_met fresh met]
    exact ih nodup ordered

theorem order_of_inOrder (ordered : InOrder g.Needs g.keys) : g.order = .ok g.keys :=
  foldlM_visit_of_inOrder g.keys_nodup ordered

end InOrder

section Redeclaring

/-- The jobs of a graph declared in another order, with the same needs. -/
structure Redeclares (g : Graph) (order : List String) (g' : Graph) : Prop where
  keys : g'.keys = order
  needs : ∀ job dep, g'.Needs job dep ↔ g.Needs job dep

theorem Redeclares.order_eq (redeclared : Redeclares g order g') (ordered : g.order = .ok order) :
    g'.order = .ok order := by
  have same : g'.Needs = g.Needs := by
    funext job dep
    exact propext (redeclared.needs job dep)
  have inOrder : InOrder g'.Needs g'.keys := by
    rw [same, redeclared.keys]
    exact (order_eq_ok ordered).inOrder
  rw [order_of_inOrder inOrder, redeclared.keys]

/-- Jobs make a graph exactly if each is declared once and all that is needed is declared. -/
theorem exists_build_iff : (∃ g, build jobs = .ok g) ↔
    (jobs.map Prod.fst).Nodup ∧ ∀ j ∈ jobs, ∀ dep ∈ j.2, dep ∈ jobs.map Prod.fst := by
  constructor
  · rintro ⟨g, built⟩
    have declared := declares_of_build built
    exact ⟨declared.keys ▸ g.keys_nodup, declared.known⟩
  · rintro ⟨nodup, known⟩
    cases built : build jobs with
    | ok g => exact ⟨g, rfl⟩
    | error fault =>
      obtain ⟨j, member, dep, needed, missing, -⟩ := unknown_of_build nodup built
      exact absurd (known j member dep needed) missing

theorem Declares.redeclares (declared : Declares jobs g) (declared' : Declares jobs' g')
    (reordered : jobs'.Perm jobs) : Redeclares g (jobs'.map Prod.fst) g' := by
  refine ⟨declared'.keys, fun job dep => ?_⟩
  rw [Needs, Needs, declared'.needs_iff, declared.needs_iff]
  simp only [reordered.mem_iff]

theorem exists_build_of_perm (built : build jobs = .ok g) (reordered : jobs'.Perm jobs) :
    ∃ g', build jobs' = .ok g' ∧ Redeclares g (jobs'.map Prod.fst) g' := by
  obtain ⟨nodup, known⟩ := exists_build_iff.mp ⟨g, built⟩
  have names : (jobs'.map Prod.fst).Perm (jobs.map Prod.fst) := reordered.map Prod.fst
  obtain ⟨g', built'⟩ := exists_build_iff.mpr ⟨names.nodup_iff.mpr nodup, fun j member dep needed =>
    names.mem_iff.mpr (known j (reordered.mem_iff.mp member) dep needed)⟩
  exact ⟨g', built', (declares_of_build built).redeclares (declares_of_build built') reordered⟩

theorem needs_of_notMem (absent : job ∉ g.keys) : g.needs job = [] := by
  rw [needs, Bindings.get?_eq_none_iff.mpr absent]
  rfl

theorem mem_keys_of_needs {dep : String} (needed : g.Needs job dep) : job ∈ g.keys := by
  by_contra absent
  rw [Needs, needs_of_notMem absent] at needed
  cases needed

theorem exists_redeclares (nodup : order.Nodup) (same : ∀ job, job ∈ order ↔ job ∈ g.keys) :
    ∃ g', Redeclares g order g' := by
  have names : (order.map fun job => (job, g.needs job)).map Prod.fst = order := by
    rw [List.map_map]
    exact List.map_id order
  let g' : Graph := ⟨order.map fun job => (job, g.needs job), names.symm ▸ nodup⟩
  refine ⟨g', names, fun job dep => ?_⟩
  have equal : g'.needs job = g.needs job := by
    by_cases listed : job ∈ order
    · have entry : (job, g.needs job) ∈ g'.entries := List.mem_map_of_mem listed
      rw [needs, Bindings.get?_eq_some_iff.mpr entry, Option.getD_some]
    · have absent : job ∉ g'.keys := fun member => listed (names ▸ member)
      rw [needs_of_notMem absent, needs_of_notMem fun member => listed ((same job).mpr member)]
  rw [Needs, Needs, equal]

end Redeclaring

theorem exists_order (complete : g.IsComplete) (acyclic : ¬IsCyclic g.Needs) :
    ∃ order, g.order = .ok order := by
  cases sorted : g.order with
  | ok order => exact ⟨order, rfl⟩
  | error fault =>
    obtain ⟨path, -, cycle⟩ := order_eq_error complete sorted
    exact absurd cycle.isCyclic acyclic

/-- Jobs that are declared after all they need are ordered as they are declared. Declared again in the
order that was found, each needing the same, they are ordered so again, be they given as a graph or as
declarations that make one. -/
theorem order_stable (g : Graph) (complete : g.IsComplete) (acyclic : ¬IsCyclic g.Needs) :
    (InOrder g.Needs g.keys → g.order = .ok g.keys) ∧
    ∃ order, g.order = .ok order ∧ (∃ g', Redeclares g order g') ∧
      (∀ g', Redeclares g order g' → g'.order = .ok order) ∧
      ∀ jobs jobs', build jobs = .ok g → jobs'.Perm jobs → jobs'.map Prod.fst = order →
        ∃ g', build jobs' = .ok g' ∧ g'.order = .ok order := by
  refine ⟨order_of_inOrder, ?_⟩
  obtain ⟨order, sorted⟩ := exists_order complete acyclic
  have ordered := order_eq_ok sorted
  refine ⟨order, sorted, exists_redeclares ordered.nodup ordered.mem_iff, fun g' redeclared =>
    redeclared.order_eq sorted, fun jobs jobs' built reordered names => ?_⟩
  obtain ⟨g', built', redeclared⟩ := exists_build_of_perm built reordered
  exact ⟨g', built', Redeclares.order_eq (names ▸ redeclared) sorted⟩

/-- Jobs of which the last declared is needed by all others. -/
def released : List (String × List String) :=
  [("deploy", ["test", "build"]), ("test", ["build"]), ("build", [])]

theorem order_stable_released :
    ∃ g, build released = .ok g ∧ g.IsComplete ∧ ¬IsCyclic g.Needs ∧
      g.order = .ok ["build", "test", "deploy"] ∧
      ∃ g', build released.reverse = .ok g' ∧ g'.order = .ok ["build", "test", "deploy"] := by
  have found : (build released >>= order) = .ok ["build", "test", "deploy"] :=
    eq_ok_of_toOption (by cbv)
  obtain ⟨g, built, sorted⟩ := bind_eq_ok_iff.mp found
  have complete : g.IsComplete := (declares_of_build built).isComplete
  have acyclic : ¬IsCyclic g.Needs := (order_eq_ok sorted).not_isCyclic fun _ _ => mem_keys_of_needs
  obtain ⟨-, order, sorted', -, -, again⟩ := order_stable g complete acyclic
  cases sorted.symm.trans sorted'
  exact ⟨g, built, complete, acyclic, sorted,
    again released released.reverse built (List.reverse_perm released) rfl⟩

end Drydock.Graph
