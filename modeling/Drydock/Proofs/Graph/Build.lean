import Drydock.Graph
import Drydock.Proofs.Traversal

set_option autoImplicit false
set_option relaxedAutoImplicit false

/-!
The graph of declared jobs. Main statements: a graph that is built has the declared jobs as its keys,
each with what it was declared to need, all of it declared; a graph that is refused has a job that
needs what is not declared.
-/

namespace Drydock.Graph

private theorem noteNeeds_eq_ok {known : List String} {job : String} {needs deps deps' : List String}
    (noted : needs.foldlM (noteNeed known job) deps = .ok deps') :
    (∀ dep ∈ needs, dep ∈ known) ∧ ∀ dep, dep ∈ deps' ↔ dep ∈ deps ∨ dep ∈ needs := by
  induction needs generalizing deps with
  | nil =>
    cases noted
    simp
  | cons d r ih =>
    rw [List.foldlM_cons, bind_eq_ok_iff] at noted
    obtain ⟨next, first, rest⟩ := noted
    obtain ⟨known', members⟩ := ih rest
    unfold noteNeed at first
    split at first
    · cases first
    · rename_i isKnown
      have next_eq := Except.ok.inj first
      refine ⟨?_, ?_⟩
      · intro dep member
        rcases List.mem_cons.mp member with rfl | member
        · exact not_not.mp isKnown
        · exact known' dep member
      · intro dep
        rw [members, ← next_eq]
        split <;> grind

private theorem noteNeeds_eq_error {known : List String} {job : String} {needs deps : List String}
    {fault : GraphFault} (refused : needs.foldlM (noteNeed known job) deps = .error fault) :
    ∃ dep ∈ needs, dep ∉ known ∧ fault = .unknown job dep known := by
  induction needs generalizing deps with
  | nil => cases refused
  | cons d r ih =>
    rw [List.foldlM_cons, bind_eq_error_iff] at refused
    rcases refused with first | ⟨next, -, rest⟩
    · unfold noteNeed at first
      split at first
      · rename_i unknown
        exact ⟨d, List.mem_cons_self, unknown, (Except.error.inj first).symm⟩
      · cases first
    · obtain ⟨dep, member, unknown, same⟩ := ih rest
      exact ⟨dep, List.mem_cons_of_mem _ member, unknown, same⟩

theorem checkNeeds_eq_ok {known : List String} {job : String} {needs deps : List String}
    (checked : checkNeeds known job needs = .ok deps) :
    (∀ dep ∈ needs, dep ∈ known) ∧ ∀ dep, dep ∈ deps ↔ dep ∈ needs := by
  simpa using noteNeeds_eq_ok checked

theorem checkNeeds_eq_error {known : List String} {job : String} {needs : List String}
    {fault : GraphFault} (refused : checkNeeds known job needs = .error fault) :
    ∃ dep ∈ needs, dep ∉ known ∧ fault = .unknown job dep known :=
  noteNeeds_eq_error refused

private theorem checkJob_eq_ok {known : List String} {j e : String × List String}
    (checked : checkJob known j = .ok e) :
    e.1 = j.1 ∧ (∀ dep ∈ j.2, dep ∈ known) ∧ ∀ dep, dep ∈ e.2 ↔ dep ∈ j.2 := by
  unfold checkJob at checked
  cases h : checkNeeds known j.1 j.2 with
  | error fault =>
    rw [h] at checked
    cases checked
  | ok deps =>
    rw [h] at checked
    cases checked
    exact ⟨rfl, checkNeeds_eq_ok h⟩

private theorem checkJob_eq_error {known : List String} {j : String × List String}
    {fault : GraphFault} (refused : checkJob known j = .error fault) :
    ∃ dep ∈ j.2, dep ∉ known ∧ fault = .unknown j.1 dep known := by
  unfold checkJob at refused
  cases h : checkNeeds known j.1 j.2 with
  | error e =>
    rw [h] at refused
    cases refused
    exact checkNeeds_eq_error h
  | ok deps =>
    rw [h] at refused
    cases refused

private theorem map_fst_of_checked {known : List String} {jobs es : List (String × List String)}
    (checked : List.Forall₂ (fun j e => checkJob known j = .ok e) jobs es) :
    es.map Prod.fst = jobs.map Prod.fst := by
  induction checked with
  | nil => rfl
  | cons first _ ih => rw [List.map_cons, List.map_cons, ih, (checkJob_eq_ok first).1]

/-- A graph holds the declared jobs, and each of them needs what it was declared to need, all of it
declared. -/
structure Declares (jobs : List (String × List String)) (g : Graph) : Prop where
  keys : g.keys = jobs.map Prod.fst
  needs : ∀ j ∈ jobs, ∀ dep, dep ∈ g.needs j.1 ↔ dep ∈ j.2
  known : ∀ j ∈ jobs, ∀ dep ∈ j.2, dep ∈ jobs.map Prod.fst

private theorem declares_of_checked {jobs es : List (String × List String)}
    (nodup : (jobs.map Prod.fst).Nodup)
    (checked : List.Forall₂ (fun j e => checkJob (jobs.map Prod.fst) j = .ok e) jobs es) :
    Declares jobs (Bindings.ofList es) := by
  have names := map_fst_of_checked checked
  have entries : (Bindings.ofList es).entries = es := Bindings.entries_ofList (names ▸ nodup)
  refine ⟨?_, ?_, ?_⟩
  · rw [Bindings.keys, entries, names]
  · intro j member dep
    obtain ⟨e, found, he⟩ := exists_mem_of_forall₂ checked member
    obtain ⟨name, -, members⟩ := checkJob_eq_ok he
    have value : (Bindings.ofList es).get? j.1 = some e.2 := by
      rw [Bindings.get?_eq_some_iff, entries, ← name]
      exact found
    rw [Graph.needs, value, Option.getD_some]
    exact members dep
  · intro j member dep needed
    obtain ⟨e, -, he⟩ := exists_mem_of_forall₂ checked member
    exact (checkJob_eq_ok he).2.1 dep needed

theorem declares_of_build {jobs : List (String × List String)} {g : Graph}
    (built : build jobs = .ok g) : Declares jobs g := by
  simp only [build] at built
  split at built
  · rename_i nodup
    cases h : jobs.mapM (checkJob (jobs.map Prod.fst)) with
    | error fault =>
      rw [h] at built
      cases built
    | ok es =>
      rw [h] at built
      cases built
      exact declares_of_checked nodup (mapM_eq_ok_iff.mp h)
  · cases built

theorem unknown_of_build {jobs : List (String × List String)} {fault : GraphFault}
    (nodup : (jobs.map Prod.fst).Nodup) (refused : build jobs = .error fault) :
    ∃ j ∈ jobs, ∃ dep ∈ j.2, dep ∉ jobs.map Prod.fst ∧
      fault = .unknown j.1 dep (jobs.map Prod.fst) := by
  simp only [build, nodup, if_true] at refused
  cases h : jobs.mapM (checkJob (jobs.map Prod.fst)) with
  | error e =>
    rw [h] at refused
    cases refused
    obtain ⟨j, member, hj⟩ := mapM_eq_error h
    exact ⟨j, member, checkJob_eq_error hj⟩
  | ok es =>
    rw [h] at refused
    cases refused

namespace Declares

variable {jobs : List (String × List String)} {g : Graph}

theorem needs_iff (declared : Declares jobs g) {job dep : String} :
    dep ∈ g.needs job ↔ ∃ needs, (job, needs) ∈ jobs ∧ dep ∈ needs := by
  constructor
  · intro needed
    have member : job ∈ g.keys := by
      by_contra absent
      rw [Graph.needs, Bindings.get?_eq_none_iff.mpr absent] at needed
      cases needed
    rw [declared.keys, List.mem_map] at member
    obtain ⟨j, found, rfl⟩ := member
    exact ⟨j.2, found, (declared.needs j found dep).mp needed⟩
  · rintro ⟨needs, found, member⟩
    exact (declared.needs (job, needs) found dep).mpr member

end Declares

end Drydock.Graph
