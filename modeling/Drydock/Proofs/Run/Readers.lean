import Drydock.Proofs.Reference
import Drydock.Proofs.Run.Agreement
import Drydock.Proofs.Run.Handover
import Mathlib

set_option autoImplicit false
set_option relaxedAutoImplicit false

/-!
The two readers of what steps put out: conditions read the records of steps, and texts are filled in
from what steps have handed on. Main statement: both read the same, unless the last step of an id was
passed over after another of that id had put something out; then conditions read nothing.
-/

namespace Drydock

namespace Machine

/-- What a condition reads for a reference; what is not found is empty. -/
def reads (m : Machine) (r : Reference) : Value :=
  (m.context.lookup r.spelling).getD (.text "")

/-- What is filled into a text for a reference, if it is taken for one. -/
def fillsIn? (m : Machine) (r : Reference) : Option Value :=
  (Reference.parse? r.spelling.toList).map fun r => .text (r.value m.state.outputs m.state.env)

/-- The outputs in the record of a step. -/
def recorded (m : Machine) (id : String) : Bindings String :=
  ((m.context.steps.get? id).map Completion.outputs).getD ∅

/-- The outputs that the steps of an id have handed on. -/
def kept (m : Machine) (id : String) : Bindings String :=
  (m.state.outputs.get? id).getD ∅

variable {m m' : Machine} {id name : String}

theorem reads_output (plainId : Reference.IsPlain id) (plainName : Reference.IsPlain name) :
    m.reads (.output id name) = .text (((m.recorded id).get? name).getD "") := by
  unfold reads Context.lookup recorded
  rw [Reference.segments_spelling plainId plainName]
  change (((m.context.steps.get? id).bind fun done => (done.outputs.get? name).map Value.text).getD _) = _
  cases m.context.steps.get? id with
  | none => rfl
  | some done => cases found : done.outputs.get? name <;> simp [found]

theorem fillsIn?_output (plainId : Reference.IsPlain id) (plainName : Reference.IsPlain name) :
    m.fillsIn? (.output id name) = some (.text (((m.kept id).get? name).getD "")) := by
  unfold fillsIn? kept
  rw [Reference.parse?_spelling plainId plainName]
  cases found : m.state.outputs.get? id with
  | none =>
    simp only [Option.map_some, Reference.value, found]
    rfl
  | some values => simp [Reference.value, found]

/-- Neither reader reads anything else than before. -/
structure SameReaders (m m' : Machine) : Prop where
  steps : m'.context.steps = m.context.steps
  outputs : m'.state.outputs = m.state.outputs

theorem SameData.sameReaders (same : SameData m m') : SameReaders m m' :=
  ⟨by rw [same.context], same.outputs⟩

theorem Around.sameReaders (around : Around m m') : SameReaders m m' :=
  ⟨by rw [around.context], by rw [around.state]⟩

theorem SameReaders.recorded (same : SameReaders m m') (id : String) :
    m'.recorded id = m.recorded id := by
  rw [Machine.recorded, same.steps]
  rfl

theorem SameReaders.kept (same : SameReaders m m') (id : String) : m'.kept id = m.kept id := by
  rw [Machine.kept, same.outputs]
  rfl

theorem recorded_passOver (m : Machine) (s : Step) (named : id ≠ "") :
    (m.passOver s).recorded id = if s.id == id then ∅ else m.recorded id := by
  unfold passOver recorded
  by_cases own : s.id = id
  · subst own
    simp [named, Context.recordStep, Bindings.get?_insert]
  · by_cases unnamed : s.id = ""
    · simp [unnamed, Ne.symm named]
    · simp [own, unnamed, Context.recordStep, Bindings.get?_insert, Ne.symm own]

theorem recorded_deliver (m : Machine) (s : Step) (values : Channel.Collected) (named : id ≠ "") :
    (m.deliver s values).recorded id =
      if s.id == id then (m.deliver s values).kept id else m.recorded id := by
  unfold deliver recorded kept
  by_cases own : s.id = id
  · subst own
    simp [named, Bindings.get?_insert]
  · by_cases unnamed : s.id = ""
    · simp [unnamed, Ne.symm named]
    · simp [own, unnamed, Bindings.get?_insert, Ne.symm own]

theorem kept_deliver (m : Machine) {s : Step} (values : Channel.Collected) (other : s.id ≠ id) :
    (m.deliver s values).kept id = m.kept id := by
  change ((m.handedOutputs s values).get? id).getD ∅ = _
  rw [get?_handedOutputs]
  simp [other, kept]

end Machine

namespace Visit

variable {w : World} {v : Visit} {reached : List Visit} {id : String}

/-- The last step of an id among those reached was passed over. -/
def passedOver (id : String) (reached : List Visit) : Bool :=
  (reached.reverse.find? fun v => v.step.id == id).any fun v => !v.attempted

theorem passedOver_concat (id : String) (reached : List Visit) (v : Visit) :
    passedOver id (reached ++ [v]) =
      if v.step.id == id then !v.attempted else passedOver id reached := by
  unfold passedOver
  rw [List.reverse_append, List.reverse_singleton, List.singleton_append, List.find?_cons]
  cases v.step.id == id <;> rfl

/-- The record of a step holds what the steps of its id have handed on, or nothing if the last of them
was passed over. -/
def Recorded (reached : List Visit) (m : Machine) : Prop :=
  ∀ id, id ≠ "" → m.recorded id = if passedOver id reached then ∅ else m.kept id

theorem Recorded.same {m m' : Machine} (recorded : Recorded reached m)
    (same : Machine.SameReaders m m') : Recorded reached m' := by
  intro id named
  rw [same.recorded, same.kept, recorded id named]

theorem recorded_of_ok {m : Machine} (recorded : Recorded reached v.start)
    (ended : v.result w = (.ok (), m)) : Recorded (reached ++ [v]) m := by
  have comes := v.comes w
  rw [ended] at comes
  intro id named
  rw [passedOver_concat]
  cases comes with
  | skipped refused =>
    have passed : v.attempted = false := Bool.eq_false_iff.mpr (mt attempted_iff.mp refused)
    have before : Recorded reached v.arrival := recorded.same v.sameData_arrival.sameReaders
    change (v.arrival.passOver v.step).recorded id = if _ then ∅ else v.arrival.kept id
    rw [Machine.recorded_passOver _ _ named, passed, before id named]
    cases v.step.id == id <;> rfl
  | done admitted kind values m₁ m₂ works worked collected =>
    have attempted := attempted_iff.mpr admitted
    have same := (sameData_collected worked collected).sameReaders
    have before := recorded.same same id named
    change (m₂.deliver v.step values).recorded id = if _ then ∅ else (m₂.deliver v.step values).kept id
    rw [Machine.recorded_deliver _ _ _ named, attempted, before]
    by_cases own : v.step.id = id
    · simp [own]
    · simp [own, Machine.kept_deliver _ _ own]

end Visit

namespace Run

variable {w : World} {declared : Bindings Job} {plans : List JobPlan}

theorem handsOn_recorded (w : World) : HandsOn w Visit.Recorded (fun _ _ => True) where
  around around recorded := recorded.same around.sameReaders
  passed recorded ended := Visit.recorded_of_ok recorded ended
  stopped _ _ := trivial
  aroundFinal _ _ := trivial
  final_of_going _ := trivial

theorem jobs_recorded (w : World) (declared : Bindings Job) (plans : List JobPlan) {m : Machine}
    (steps : m.context.steps = ∅) (outputs : m.state.outputs = ∅) :
    Handed Visit.Recorded (fun _ _ => True) [] (visits w declared plans m)
      (jobs w declared plans m) := by
  refine (handsOn_recorded w).jobs fun id _ => ?_
  rw [Machine.recorded, Machine.kept, steps, outputs]
  rfl

end Run

theorem Visit.creditedOutputs?_of_none {w : World} {id : String} {reached : List Visit}
    (none : ∀ u ∈ reached, u.step.id = id → u.succeeds w = false) :
    Visit.creditedOutputs? w id reached = .none := by
  have empty : Visit.doneAs w id reached = [] := by
    refine List.filter_eq_nil_iff.mpr fun u member done => ?_
    obtain ⟨well, own⟩ := Bool.and_eq_true_iff.mp done
    have same : u.step.id = id := by simpa using (Bool.and_eq_true_iff.mp own).1
    rw [none u member same] at well
    cases well
  rw [creditedOutputs?, empty]
  rfl

/-- The last step of an id among those reached was passed over, after another of that id had ended
well. -/
def Visit.Hides (w : World) (id : String) (reached : List Visit) : Prop :=
  Visit.passedOver id reached = true ∧ ∃ u ∈ reached, u.step.id = id ∧ u.succeeds w = true

/-- In a run that begins without records of steps, whenever a step is reached, a condition reads for an
output what would be filled into a text for it, except where a step that was passed over hides what
another of its id has put out: then conditions read nothing. -/
theorem Workflow.execute_reads_outputs (w : World) (workingDir : String)
    (scratch : Except FileFault String) (workflow : Workflow) (p : Plan) {c : Context}
    (fresh : c.steps = ∅) :
    ∀ before v after, workflow.visits w workingDir scratch p c = before ++ v :: after →
      ∀ id name, Reference.IsPlain id → Reference.IsPlain name →
        (¬ Visit.Hides w id before →
          v.start.fillsIn? (.output id name) = some (v.start.reads (.output id name))) ∧
        (Visit.passedOver id before = true → v.start.reads (.output id name) = .text "") := by
  intro before v after split id name plainId plainName
  cases scratch with
  | error fault => simp [Workflow.visits] at split
  | ok directory =>
    have start : Visit.Accounted w c [] (Machine.initial workingDir directory c).state c :=
      ⟨rfl, rfl, fun _ => rfl⟩
    have credited := ((Run.jobs_accounted w workflow.jobs p.jobs start
      ⟨_, rfl, Channel.isBlank_opened directory⟩).at_ before v after split).1
    have recorded : v.start.recorded id =
        if Visit.passedOver id before then ∅ else v.start.kept id :=
      (Run.jobs_recorded w workflow.jobs p.jobs (m := .initial workingDir directory c) fresh
        rfl).at_ before v after split id plainId.nonempty
    rw [Machine.fillsIn?_output plainId plainName, Machine.reads_output plainId plainName, recorded]
    refine ⟨fun shown => ?_, fun passed => ?_⟩
    · cases passed : Visit.passedOver id before with
      | false => rfl
      | true =>
        -- The step that was passed over hides nothing, so none of its id has handed anything on.
        have none : ∀ u ∈ before, u.step.id = id → u.succeeds w = false := by
          intro u member same
          by_contra well
          exact shown ⟨passed, u, member, same, by simpa using well⟩
        have nothing : v.start.kept id = ∅ := by
          rw [Machine.kept, credited.outputs, List.nil_append, Visit.creditedOutputs?_of_none none]
          rfl
        rw [nothing]
        rfl
    · rw [passed]
      rfl

section Sample

private def outputStep (id condition run : String) : Step :=
  { (default : Step) with id := id, condition := condition, run := run }

private def lastStep : Step := outputStep "" "" "make"

/-- Two jobs with a step of the same id, which the second passes over; in both another step comes after
it. -/
def Workflow.sharedId : Workflow where
  name := "shared"
  on := .text "push"
  env := ∅
  jobs := .ofList [
    ("first", { (default : Job) with steps := [outputStep "x" "" "make", lastStep] }),
    ("second", { (default : Job) with
      needs := .one "first", steps := [outputStep "x" "false" "make", lastStep] })]

/-- A world in which every container puts out the same value. -/
def World.puttingOut : World :=
  { World.idle with engine :=
    { World.idle.engine with behaviour := fun _ _ =>
        ⟨[.write .output [111, 61, 49, 10]], .exits 0 ""⟩ } }

/-- The steps that a run of the plan comes to in that world. -/
def Plan.sharedIdVisits (p : Plan) : List Visit :=
  Workflow.sharedId.visits .puttingOut "/work" (.ok "/files") p .sample

set_option maxRecDepth 10000 in
theorem sharedId_stores :
    (Workflow.sharedId.plan .sample).toOption.map (fun p => p.sharedIdVisits.map fun v =>
        (v.job, v.index, (v.start.recorded "x").entries, (v.start.kept "x").entries)) =
      some [("first", 1, [], []), ("first", 2, [("o", "1")], [("o", "1")]),
        ("second", 1, [("o", "1")], [("o", "1")]), ("second", 2, [], [("o", "1")])] := by
  cbv

private theorem isPlain_of_letter {c : Char} (plain : c ≠ '.' ∧ Text.isBlank c = false) :
    Reference.IsPlain (String.ofList [c]) :=
  ⟨by simp [← String.toList_inj], by simpa using Ne.symm plain.1, by simpa using plain.2⟩

private theorem isPlain_step : Reference.IsPlain "x" := isPlain_of_letter (by decide)

private theorem isPlain_output : Reference.IsPlain "o" := isPlain_of_letter (by decide)

theorem exists_sharedId_visit :
    ∃ p, Workflow.sharedId.plan .sample = .ok p ∧ ∃ before v after,
      p.sharedIdVisits = before ++ v :: after ∧ v.job = "second" ∧ v.index = 2 ∧
        v.start.reads (.output "x" "o") = .text "" ∧
        v.start.fillsIn? (.output "x" "o") = some (.text "1") := by
  obtain ⟨p, planned, stores⟩ := exists_of_map_toOption sharedId_stores
  obtain ⟨before, rest, split, -, last⟩ := List.map_eq_append_iff.mp
    (stores.trans (List.append_cancel_left_eq [_, _, _] _ _ |>.mpr rfl))
  obtain ⟨v, after, rfl, same, -⟩ := List.map_eq_cons_iff.mp last
  simp only [Prod.mk.injEq] at same
  obtain ⟨job, index, recorded, kept⟩ := same
  refine ⟨p, planned, before, v, after, split, job, index, ?_, ?_⟩
  · rw [Machine.reads_output isPlain_step isPlain_output, Bindings.get?, recorded]
    rfl
  · rw [Machine.fillsIn?_output isPlain_step isPlain_output, Bindings.get?, kept]
    rfl

/-- Although step ids are unique in each job and the run begins without records of steps, the readers
may differ when a step is reached. -/
theorem Workflow.readers_differ :
    (∀ e ∈ Workflow.sharedId.jobs.entries, (e.2.steps.map Step.id).Nodup) ∧
      Context.sample.steps = ∅ ∧ Reference.IsPlain "x" ∧ Reference.IsPlain "o" ∧
      ∃ p before v after, Workflow.sharedId.plan .sample = .ok p ∧
        p.sharedIdVisits = before ++ v :: after ∧
        v.start.fillsIn? (.output "x" "o") ≠ some (v.start.reads (.output "x" "o")) := by
  refine ⟨by decide, rfl, isPlain_step, isPlain_output, ?_⟩
  obtain ⟨p, planned, before, v, after, split, -, -, reads, fills⟩ := exists_sharedId_visit
  refine ⟨p, before, v, after, planned, split, ?_⟩
  rw [reads, fills]
  simp

theorem Workflow.execute_reads_outputs_sharedId :
    Context.sample.steps = ∅ ∧ Reference.IsPlain "x" ∧ Reference.IsPlain "o" ∧
      ∃ p, Workflow.sharedId.plan .sample = .ok p ∧ ∃ before v after,
        p.sharedIdVisits = before ++ v :: after ∧ v.job = "second" ∧ v.index = 2 ∧
          Visit.Hides .puttingOut "x" before ∧ v.start.reads (.output "x" "o") = .text "" := by
  obtain ⟨p, planned, before, v, after, split, job, index, reads, fills⟩ := exists_sharedId_visit
  obtain ⟨agree, nothing⟩ := Workflow.execute_reads_outputs .puttingOut "/work" (.ok "/files")
    Workflow.sharedId p rfl before v after split "x" "o" isPlain_step isPlain_output
  have hidden : Visit.Hides .puttingOut "x" before := by
    by_contra shown
    have same := agree shown
    rw [reads, fills] at same
    simp at same
  exact ⟨rfl, isPlain_step, isPlain_output, p, planned, before, v, after, split, job, index, hidden,
    nothing hidden.1⟩

end Sample

end Drydock
