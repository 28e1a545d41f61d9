import Drydock.Proofs.Plan.Existence

set_option autoImplicit false
set_option relaxedAutoImplicit false

/-!
Workflows that declare the same jobs in different orders. Main statement: there is a plan of both or
of neither, and a job has the same verdict in both if neither it nor what it needs reads the record
of a declared job that is not related to it by need; that of any other job may not be there yet in
one of the orders.
-/

namespace Drydock

open Relation (ReflTransGen TransGen)

/-- The job whose record the segments of a path read. A plan puts out nothing, so that an output is
read only if it is in the data to begin with. -/
def Context.recordRead? (c : Context) : List String → Option String
  | ["jobs", job, "status"] => some job
  | ["jobs", job, "outputs", name] =>
    (c.jobs.get? job).bind fun done => (done.outputs.get? name).map fun _ => job
  | _ => none

namespace Workflow

variable {w w' : Workflow}

theorem get?_of_perm (reordered : w'.jobs.entries.Perm w.jobs.entries) (name : String) :
    w'.jobs.get? name = w.jobs.get? name := by
  refine Option.ext fun j => ?_
  rw [Bindings.get?_eq_some_iff, Bindings.get?_eq_some_iff, reordered.mem_iff]

theorem mem_keys_of_perm (reordered : w'.jobs.entries.Perm w.jobs.entries) (name : String) :
    name ∈ w'.jobs.keys ↔ name ∈ w.jobs.keys := by
  rw [Bindings.mem_keys_iff, Bindings.mem_keys_iff, get?_of_perm reordered]

theorem needs_of_perm (reordered : w'.jobs.entries.Perm w.jobs.entries) : w'.Needs = w.Needs := by
  funext job dep
  simp only [Needs, get?_of_perm reordered]

theorem exists_plan_of_perm (reordered : w'.jobs.entries.Perm w.jobs.entries) (c : Context) :
    (∃ p, w'.plan c = .ok p) ↔ ∃ p, w.plan c = .ok p := by
  simp only [exists_plan_iff, MissesJob, needs_of_perm reordered, mem_keys_of_perm reordered,
    get?_of_perm reordered]

/-- One of two jobs needs the other, by way of others or not, or they are the same. -/
def Related (w : Workflow) (a b : String) : Prop :=
  ReflTransGen w.Needs a b ∨ ReflTransGen w.Needs b a

/-- Of the declared jobs, the conditions of a job and of its steps read only records of those that
are related to it. -/
def ReadsRelated (w : Workflow) (c : Context) (name : String) : Prop :=
  ∀ j, w.jobs.get? name = some j → ∀ e ∈ j.conditions, ∀ path ∈ Expr.paths e,
    ∀ other ∈ w.jobs.keys, c.recordRead? (Context.segments path) = some other → w.Related name other

end Workflow

section Records

variable {c data data' : Context} {plans plans' : List JobPlan}

theorem recordPlans_eq (c : Context) (plans : List JobPlan) :
    c.recordPlans plans = { c with jobs := (c.recordPlans plans).jobs } := by
  induction plans generalizing c with
  | nil => rfl
  | cons v r ih => exact ih (c.recordJob v.name v.status ∅)

/-- A plan leaves the record of a job as it is or puts one without outputs in its place. -/
theorem get?_recordPlans (c : Context) (plans : List JobPlan) (job : String) :
    (c.recordPlans plans).jobs.get? job = c.jobs.get? job ∨
      ∃ status, (c.recordPlans plans).jobs.get? job = some ⟨status, ∅⟩ := by
  induction plans generalizing c with
  | nil => exact .inl rfl
  | cons v r ih =>
    rcases ih (c.recordJob v.name v.status ∅) with kept | replaced
    · change (c.recordPlans (v :: r)).jobs.get? job = _ at kept
      rw [kept, Context.recordJob, Bindings.get?_insert]
      split
      · exact .inr ⟨v.status, rfl⟩
      · exact .inl rfl
    · exact .inr replaced

/-- A path that reads no record of a job has no answer among the records of jobs. -/
theorem lookup_of_unread {job : String} {r : List String}
    (unread : c.recordRead? ("jobs" :: job :: r) ≠ some job) (plans : List JobPlan) :
    (((c.recordPlans plans).jobs.get? job).bind fun done => done.lookup "status" r) = none := by
  rw [Option.bind_eq_none_iff]
  intro done recorded
  unfold Completion.lookup
  split
  · split
    · rename_i status
      exact absurd (by rw [status]; rfl) unread
    · rfl
  · rename_i output
    rcases get?_recordPlans c plans job with kept | ⟨status, replaced⟩
    · rw [recorded] at kept
      simp only [Context.recordRead?, ← kept, Option.bind_some] at unread
      cases found : done.outputs.get? output with
      | none => rfl
      | some text => exact absurd (by rw [found]; rfl) unread
    · obtain rfl := Option.some.inj (recorded.symm.trans replaced)
      rfl
  · rfl

/-- Of the records of jobs, those that are read are all that matters to an answer. -/
theorem lookupSegments_recordPlans {segments : List String}
    (same : ∀ job, c.recordRead? segments = some job →
      (c.recordPlans plans).jobs.get? job = (c.recordPlans plans').jobs.get? job) :
    (c.recordPlans plans).lookupSegments segments =
      (c.recordPlans plans').lookupSegments segments := by
  rw [recordPlans_eq c plans, recordPlans_eq c plans']
  unfold Context.lookupSegments
  split
  case h_5 job r =>
    by_cases read : c.recordRead? ("jobs" :: job :: r) = some job
    · rw [same job read]
    · exact (lookup_of_unread read plans).trans (lookup_of_unread read plans').symm
  all_goals rfl

theorem evaluate_recordPlans {text : String}
    (same : ∀ path ∈ Expr.paths text, ∀ job, c.recordRead? (Context.segments path) = some job →
      (c.recordPlans plans).jobs.get? job = (c.recordPlans plans').jobs.get? job) :
    Expr.evaluate (c.recordPlans plans).lookup text =
      Expr.evaluate (c.recordPlans plans').lookup text :=
  Expr.evaluate_congr fun path member => lookupSegments_recordPlans (same path member)

theorem unmetNeed?_congr {needs : List String}
    (same : ∀ dep ∈ needs, data.jobs.get? dep = data'.jobs.get? dep) :
    unmetNeed? data needs = unmetNeed? data' needs := by
  induction needs with
  | nil => rfl
  | cons dep r ih =>
    obtain ⟨first, others⟩ := List.forall_mem_cons.mp same
    simp only [unmetNeed?, first, ih others]

theorem judge?_congr {expression : String}
    (same : Expr.evaluate data.lookup expression = Expr.evaluate data'.lookup expression) :
    judge? data expression = judge? data' expression := by
  simp only [judge?, judge, same]

/-- A job is judged alike where its needs are recorded alike and its conditions have the same
outcomes. -/
theorem planJob_congr {name : String} {j : Job}
    (needs : ∀ dep ∈ j.dependencies, data.jobs.get? dep = data'.jobs.get? dep)
    (conditions : ∀ e ∈ j.conditions,
      Expr.evaluate data.lookup e = Expr.evaluate data'.lookup e) :
    planJob data name j = planJob data' name j := by
  obtain ⟨own, each⟩ := List.forall_mem_cons.mp conditions
  have steps : j.steps.mapM (planStep data) = j.steps.mapM (planStep data') := by
    refine mapM_congr fun s member => ?_
    simp only [planStep, judge?_congr (each s.condition (List.mem_map_of_mem member))]
  simp only [planJob, unmetNeed?_congr needs, judge?_congr own, steps]

end Records

namespace Foreseen

variable {w : Workflow} {c : Context} {p : Plan} {earlier later : List JobPlan} {v : JobPlan}
  {job : String}

theorem exists_earlier_of_transGen (foreseen : Foreseen w c p)
    (split : p.jobs = earlier ++ v :: later) (needed : TransGen w.Needs v.name job) :
    ∃ d ∈ earlier, d.name = job := by
  induction needed with
  | single first => exact foreseen.exists_earlier split first
  | tail _ last ih =>
    obtain ⟨d, before, rfl⟩ := ih
    obtain ⟨front, back, rfl⟩ := List.append_of_mem before
    have place : p.jobs = front ++ d :: (back ++ v :: later) := by simp [split]
    obtain ⟨x, found, same⟩ := foreseen.exists_earlier place last
    exact ⟨x, List.mem_append_left _ found, same⟩

/-- What is needed by a job or is the job itself is not judged before it but after all it needs. -/
theorem notMem_earlier (foreseen : Foreseen w c p) (split : p.jobs = earlier ++ v :: later)
    (needing : ReflTransGen w.Needs job v.name) : job ∉ earlier.map JobPlan.name := by
  intro before
  obtain ⟨d, found, rfl⟩ := List.mem_map.mp before
  have nodup := foreseen.names_nodup
  rw [split, List.map_append, List.map_cons] at nodup
  have apart : v.name ∉ earlier.map JobPlan.name := fun member =>
    (List.disjoint_of_nodup_append nodup) member List.mem_cons_self
  rcases Relation.reflTransGen_iff_eq_or_transGen.mp needing with same | needing
  · exact apart (same ▸ before)
  · obtain ⟨front, back, rfl⟩ := List.append_of_mem found
    have place : p.jobs = front ++ d :: (back ++ v :: later) := by simp [split]
    obtain ⟨x, member, same⟩ := foreseen.exists_earlier_of_transGen place needing
    exact apart (same ▸ List.mem_map_of_mem (List.mem_append_left _ member))

theorem notMem_earlier_of_foreign (foreseen : Foreseen w c p)
    (split : p.jobs = earlier ++ v :: later) (foreign : job ∉ w.jobs.keys) :
    job ∉ earlier.map JobPlan.name := by
  rw [← foreseen.isOrder.mem_iff, Plan.order, split, List.map_append, List.mem_append,
    not_or] at foreign
  exact foreign.1

end Foreseen

section Reordered

variable {w w' : Workflow} {c : Context} {p p' : Plan}
  {earlier later earlier' later' : List JobPlan} {v v' : JobPlan}

/-- When a job is judged, the jobs that it is related to are recorded alike in both orders. -/
theorem get?_recordPlans_of_perm (reordered : w'.jobs.entries.Perm w.jobs.entries)
    (foreseen : Foreseen w c p) (foreseen' : Foreseen w' c p')
    (split : p.jobs = earlier ++ v :: later) (split' : p'.jobs = earlier' ++ v' :: later')
    (same : v'.name = v.name)
    (kept : ∀ d ∈ earlier, TransGen w.Needs v.name d.name → d ∈ p'.jobs) {job : String}
    (related : job ∈ w.jobs.keys → w.Related v.name job) :
    (c.recordPlans earlier).jobs.get? job = (c.recordPlans earlier').jobs.get? job := by
  have needs := Workflow.needs_of_perm reordered
  have unrecorded (fresh : job ∉ earlier.map JobPlan.name)
      (fresh' : job ∉ earlier'.map JobPlan.name) :
      (c.recordPlans earlier).jobs.get? job = (c.recordPlans earlier').jobs.get? job := by
    rw [get?_recordPlans_of_notMem fresh, get?_recordPlans_of_notMem fresh']
  by_cases declared : job ∈ w.jobs.keys
  · rcases related declared with needed | needing
    · rcases Relation.reflTransGen_iff_eq_or_transGen.mp needed with rfl | needed
      · exact unrecorded (foreseen.notMem_earlier split .refl)
          (foreseen'.notMem_earlier split' (same ▸ .refl))
      · obtain ⟨d, before, rfl⟩ := foreseen.exists_earlier_of_transGen split needed
        have needed' : TransGen w'.Needs v'.name d.name := by rwa [needs, same]
        obtain ⟨d', before', named⟩ := foreseen'.exists_earlier_of_transGen split' needed'
        have listed : d' ∈ p'.jobs := split' ▸ List.mem_append_left _ before'
        obtain rfl := List.inj_on_of_nodup_map foreseen'.names_nodup listed
          (kept d before needed) named
        rw [get?_recordPlans_of_mem (foreseen.earlier_nodup split) before,
          get?_recordPlans_of_mem (foreseen'.earlier_nodup split') before']
    · have needing' : ReflTransGen w'.Needs job v'.name := by rwa [needs, same]
      exact unrecorded (foreseen.notMem_earlier split needing)
        (foreseen'.notMem_earlier split' needing')
  · have foreign : job ∉ w'.jobs.keys := by rwa [Workflow.mem_keys_of_perm reordered]
    exact unrecorded (foreseen.notMem_earlier_of_foreign split declared)
      (foreseen'.notMem_earlier_of_foreign split' foreign)

/-- A job that does not depend on unrelated records is planned as it is in the other order. -/
theorem mem_of_perm (reordered : w'.jobs.entries.Perm w.jobs.entries) (planned : w.plan c = .ok p)
    (planned' : w'.plan c = .ok p') (split : p.jobs = earlier ++ v :: later)
    (reads : ∀ job, ReflTransGen w.Needs v.name job → w.ReadsRelated c job) : v ∈ p'.jobs := by
  have foreseen := foreseen_of_plan planned
  have foreseen' := foreseen_of_plan planned'
  -- The induction is along the order of the plan: what a job needs is judged before it.
  induction count : earlier.length using Nat.strong_induction_on generalizing earlier v later with
  | _ n ih =>
    obtain ⟨-, -, verdicts⟩ := planned_of_plan planned
    obtain ⟨-, -, verdicts'⟩ := planned_of_plan planned'
    obtain ⟨j, found, judged⟩ := verdicts earlier v later split
    have listed : v.name ∈ p'.order := by
      rw [foreseen'.isOrder.mem_iff, Workflow.mem_keys_of_perm reordered, Bindings.mem_keys_iff]
      exact ⟨j, found⟩
    obtain ⟨v', member, same⟩ := List.mem_map.mp listed
    obtain ⟨earlier', later', split'⟩ := List.append_of_mem member
    obtain ⟨j', found', judged'⟩ := verdicts' earlier' v' later' split'
    rw [same, Workflow.get?_of_perm reordered, found] at found'
    obtain rfl := Option.some.inj found'
    have kept : ∀ d ∈ earlier, TransGen w.Needs v.name d.name → d ∈ p'.jobs := by
      intro d before needed
      obtain ⟨front, back, rfl⟩ := List.append_of_mem before
      have place : p.jobs = front ++ d :: (back ++ v :: later) := by simp [split]
      refine ih front.length ?_ place ?_ rfl
      · rw [← count, List.length_append, List.length_cons]
        omega
      · exact fun job further => reads job (needed.to_reflTransGen.trans further)
    have recorded {job : String} (related : job ∈ w.jobs.keys → w.Related v.name job) :=
      get?_recordPlans_of_perm reordered foreseen foreseen' split split' same kept related
    have verdict : planJob (c.recordPlans earlier) v.name j =
        planJob (c.recordPlans earlier') v.name j := by
      refine planJob_congr (fun dep needed => recorded fun _ => ?_) fun e condition => ?_
      · exact .inl (.single ⟨j, found, needed⟩)
      · refine evaluate_recordPlans fun path read job named => recorded fun declared => ?_
        exact reads v.name .refl j found e condition path read job declared named
    rw [judged, ← same, judged'] at verdict
    obtain rfl := Except.ok.inj verdict
    exact member

end Reordered

/-- Whatever the order in which the same jobs are declared, they are planned or they are not, and a
job that reads, like all it needs, no record of a declared job but of those that it is related to by
need has the same verdict, with those of its steps. -/
theorem Workflow.plan_of_perm {w w' : Workflow} (reordered : w'.jobs.entries.Perm w.jobs.entries)
    (c : Context) :
    ((∃ p, w'.plan c = .ok p) ↔ ∃ p, w.plan c = .ok p) ∧
    ∀ p p', w.plan c = .ok p → w'.plan c = .ok p' →
      p'.order.Perm p.order ∧
      ∀ v ∈ p.jobs, (∀ job, ReflTransGen w.Needs v.name job → w.ReadsRelated c job) →
        v ∈ p'.jobs := by
  refine ⟨exists_plan_of_perm reordered c, fun p p' planned planned' => ⟨?_, ?_⟩⟩
  · have ordered := (foreseen_of_plan planned).isOrder
    have ordered' := (foreseen_of_plan planned').isOrder
    refine (List.perm_ext_iff_of_nodup ordered'.nodup ordered.nodup).mpr fun job => ?_
    rw [ordered'.mem_iff, ordered.mem_iff, mem_keys_of_perm reordered]
  · intro v member reads
    obtain ⟨earlier, later, split⟩ := List.append_of_mem member
    exact mem_of_perm reordered planned planned' split reads

section Sample

private def readerOf (needs : List String) : Job :=
  { (default : Job) with needs := .many needs, condition := "jobs.setup.status == 'success'" }

/-- A job, one that needs it and reads its status, and one that reads its status alone. -/
def Workflow.readers : Workflow where
  name := "readers"
  on := .text "push"
  env := ∅
  jobs := .ofList [("setup", default), ("use", readerOf ["setup"]), ("peek", readerOf [])]

/-- The same jobs in reverse. -/
def Workflow.readersReversed : Workflow :=
  { Workflow.readers with
    jobs := .ofList [("peek", readerOf []), ("use", readerOf ["setup"]), ("setup", default)] }

theorem Workflow.readers_reordered :
    Workflow.readersReversed.jobs.entries.Perm Workflow.readers.jobs.entries :=
  List.reverse_perm Workflow.readers.jobs.entries

set_option maxRecDepth 10000 in
theorem plan_readers :
    (Workflow.readers.plan .empty).toOption.map (fun p => p.jobs.map fun v =>
      (v.name, v.wouldRun)) = some [("setup", true), ("use", true), ("peek", true)] := by
  cbv

set_option maxRecDepth 10000 in
theorem plan_readersReversed :
    (Workflow.readersReversed.plan .empty).toOption.map (fun p => p.jobs.map fun v =>
      (v.name, v.wouldRun)) = some [("peek", false), ("setup", true), ("use", true)] := by
  cbv

set_option maxRecDepth 10000 in
theorem Workflow.readsRelated_setup : Workflow.readers.ReadsRelated .empty "setup" := by
  have paths : Expr.paths (default : Job).condition = [] := by cbv
  intro j found e condition path read
  obtain rfl : j = default := Option.some.inj (found.symm.trans rfl)
  obtain rfl := List.mem_singleton.mp condition
  rw [paths] at read
  cases read

set_option maxRecDepth 10000 in
theorem Workflow.readsRelated_use : Workflow.readers.ReadsRelated .empty "use" := by
  have paths : Expr.paths (readerOf ["setup"]).condition = ["jobs.setup.status"] := by cbv
  have named : Context.empty.recordRead? (Context.segments "jobs.setup.status") = some "setup" := by
    cbv
  intro j found e condition path read other _ reads
  obtain rfl : j = readerOf ["setup"] := Option.some.inj (found.symm.trans rfl)
  obtain rfl := List.mem_singleton.mp condition
  rw [paths] at read
  obtain rfl := List.mem_singleton.mp read
  obtain rfl := Option.some.inj (named.symm.trans reads)
  exact .inl (.single ⟨_, found, List.mem_cons_self⟩)

theorem Workflow.eq_of_needs_readers {job dep : String} (needed : Workflow.readers.Needs job dep) :
    dep = "setup" := by
  obtain ⟨j, found, needed⟩ := needed
  rw [Bindings.get?_eq_some_iff] at found
  change _ ∈ [_, _, _] at found
  simp only [List.mem_cons, Prod.mk.injEq, List.not_mem_nil, or_false] at found
  obtain ⟨-, rfl⟩ | ⟨-, rfl⟩ | ⟨-, rfl⟩ := found
  · cases needed
  · exact List.mem_singleton.mp needed
  · cases needed

/-- Reversed, the jobs are planned as well, and the one that needs what it reads is so as before. -/
theorem Workflow.plan_of_perm_readers :
    ∃ p p', Workflow.readers.plan .empty = .ok p ∧ Workflow.readersReversed.plan .empty = .ok p' ∧
      ∃ v ∈ p.jobs, v.name = "use" ∧ v.wouldRun = true ∧ v ∈ p'.jobs := by
  obtain ⟨p, planned, verdicts⟩ := exists_of_map_toOption plan_readers
  obtain ⟨exists_iff, same⟩ := Workflow.plan_of_perm Workflow.readers_reordered .empty
  obtain ⟨p', planned'⟩ := exists_iff.mpr ⟨p, planned⟩
  have listed : ("use", true) ∈ p.jobs.map fun v => (v.name, v.wouldRun) := by simp [verdicts]
  obtain ⟨v, member, named⟩ := List.mem_map.mp listed
  obtain ⟨name, runs⟩ := Prod.mk.inj named
  refine ⟨p, p', planned, planned', v, member, name, runs, ?_⟩
  refine (same p p' planned planned').2 v member fun job needed => ?_
  rw [name] at needed
  rcases ReflTransGen.cases_tail needed with rfl | ⟨_, _, last⟩
  · exact Workflow.readsRelated_use
  · exact Workflow.eq_of_needs_readers last ▸ Workflow.readsRelated_setup

/-- The job that reads the status of a job without need of it runs after it and not before it. -/
theorem Workflow.plan_differs_of_perm :
    Workflow.readersReversed.jobs.entries.Perm Workflow.readers.jobs.entries ∧
      ∃ p p', Workflow.readers.plan .empty = .ok p ∧
        Workflow.readersReversed.plan .empty = .ok p' ∧
        (p.jobs.map fun v => (v.name, v.wouldRun)) =
          [("setup", true), ("use", true), ("peek", true)] ∧
        (p'.jobs.map fun v => (v.name, v.wouldRun)) =
          [("peek", false), ("setup", true), ("use", true)] := by
  obtain ⟨p, planned, verdicts⟩ := exists_of_map_toOption plan_readers
  obtain ⟨p', planned', verdicts'⟩ := exists_of_map_toOption plan_readersReversed
  exact ⟨Workflow.readers_reordered, p, p', planned, planned', verdicts, verdicts'⟩

end Sample

end Drydock
