import Drydock.Proofs.Run.Bookkeeping
import Drydock.Proofs.Run.Rejection
import Mathlib

set_option autoImplicit false
set_option relaxedAutoImplicit false

/-!
What can leave a run. Main statement: once its files are there, a run of declared jobs finishes, fails
or is interrupted, unless it comes to a condition that cannot be judged or to an action whose metadata
break their reader; these two always get through.
-/

namespace Drydock

namespace Run

variable {α : Type} {w : World} {x : Run α} {m m' : Machine} {reason : Stop}

/-- What stops a part of a run is told as a failure, or it is an interruption. -/
def Tame (x : Run α) : Prop :=
  ∀ m reason m', x m = (.error reason, m') → reason.Escapes → ∃ message, reason = .interrupted message

/-- What stops the work on a container is a failure or an interruption. -/
theorem interrupted_of_causes (causes : w.engine.Causes reason) (escapes : reason.Escapes) :
    ∃ message, reason = .interrupted message := by
  cases causes with
  | interrupted calls name message ending => exact ⟨message, rfl⟩
  | refused | reported | broken | undone => exact absurd escapes id

theorem Tame.of_causes (stops : StopsBy w.engine.Causes x) : Tame x :=
  stops.mono fun _ => interrupted_of_causes

section Action

variable {s : Step}

/-- Of an action only an interruption escapes, or a fault of the reader of its own metadata. -/
theorem action_escapes (ended : action w s m = (.error reason, m')) (escapes : reason.Escapes) :
    (∃ message, reason = .interrupted message) ∨ ∃ fault, reason = .unread fault ∧
      w.metadataOf? m.state.workingDir s = some (.error (.broken fault)) := by
  cases action_eq_error ended with
  | unread fault asked => exact .inr ⟨fault, rfl, asked⟩
  | caused reason causes => exact .inl (interrupted_of_causes causes escapes)
  | rejected | notCloned | noProgram | unreadable => exact absurd escapes id

/-- A fault of the reader of its own metadata always escapes. -/
theorem action_of_broken {fault : ReadFault}
    (asked : w.metadataOf? m.state.workingDir s = some (.error (.broken fault))) :
    (action w s m).1 = .error (.unread fault) := by
  obtain ⟨files, m₁, answer, -, same⟩ := action_of_asked asked
  rw [same, bind_apply]
  unfold metadata
  rw [answer]
  rfl

end Action

end Run

namespace Visit

variable {w : World} {v : Visit} {reason : Stop} {m : Machine}

/-- A step meets metadata that break their reader: it is done, its work is an action, and that is the
answer when it asks for them. -/
structure ReadsBroken (w : World) (v : Visit) (fault : ReadFault) : Prop where
  admitted : v.start.context.Admits v.step.condition
  works : v.step.work? = some .action
  answer : w.metadataOf? v.start.state.workingDir v.step = some (.error (.broken fault))

/-- What escapes from a step is an interruption, the fault of its condition, or that of its metadata. -/
theorem escapes (ended : v.result w = (.error reason, m)) (escapes : reason.Escapes) :
    (∃ message, reason = .interrupted message) ∨
    (∃ fault, reason = .unjudged fault ∧ judge? v.start.context v.step.condition = .error fault) ∨
    ∃ fault, reason = .unread fault ∧ v.ReadsBroken w fault := by
  cases stops ended with
  | unjudged fault judged => exact .inr (.inl ⟨fault, rfl, judged⟩)
  | idle admitted works => exact absurd escapes id
  | failed admitted kind f m works worked => exact absurd escapes id
  | escaped admitted kind reason m works worked _ =>
    cases kind with
    | run => exact .inl (Run.Tame.of_causes (.command v.step) _ reason m worked escapes)
    | action =>
      rcases Run.action_escapes worked escapes with interrupted | ⟨fault, same, answer⟩
      · exact .inl interrupted
      · exact .inr (.inr ⟨fault, same, admitted, works, answer⟩)

theorem unjudged_of_error {fault : PlanFault}
    (judged : judge? v.start.context v.step.condition = .error fault) :
    v.result w = (.error (.unjudged fault), v.arrival) := by
  change (Run.admitted v.step >>= Run.turn w v.step) v.arrival = _
  rw [Run.bind_apply, Run.admitted_of_error (m := v.arrival) judged]

/-- What escapes from the work of a step escapes from the step. -/
theorem result_of_escapes {kind : StepKind} (admitted : v.start.context.Admits v.step.condition)
    (works : v.step.work? = some kind)
    (worked : (Run.work w v.step kind (v.arrival.begin_ v.step)).1 = .error reason)
    (escapes : reason.Escapes) : (v.result w).1 = .error reason := by
  rw [result_of_attempted w (attempted_iff.mpr admitted)]
  change ((Run.step w v.step >>= fun _ => Run.emit (.stepSucceeded v.step.displayName)) v.arrival).1 = _
  rw [Run.bind_apply, Run.step_of_work works, worked]
  cases reason with
  | failure | file => exact absurd escapes id
  | interrupted | unjudged | unread => rfl

theorem unread_of_readsBroken {fault : ReadFault} (broken : v.ReadsBroken w fault) :
    (v.result w).1 = .error (.unread fault) :=
  have stopped : (Run.work w v.step .action (v.arrival.begin_ v.step)).1 = .error (.unread fault) :=
    Run.action_of_broken (m := v.arrival.begin_ v.step) broken.answer
  result_of_escapes broken.admitted broken.works stopped trivial

end Visit

namespace Run

variable {w : World} {declared : Bindings Job} {plans : List JobPlan} {m m' : Machine} {reason : Stop}

/-- All steps that are reached end well but for the last one. -/
theorem handsOn_endsWell (w : World) :
    HandsOn w (fun reached _ => ∀ u ∈ reached, (u.result w).1 = .ok ())
      (fun reached _ => ∀ u ∈ reached.dropLast, (u.result w).1 = .ok ()) where
  around _ well := well
  passed {_ v _} well ended u member := by
    rcases List.mem_append.mp member with earlier | last
    · exact well u earlier
    · rw [List.mem_singleton.mp last, ended]
  stopped well _ u member := by
    rw [List.dropLast_concat] at member
    exact well u member
  aroundFinal _ well := well
  final_of_going well u member := well u (List.mem_of_mem_dropLast member)

/-- What leaves a run and is no failure has escaped from the last step that was reached. -/
theorem last_of_escaped (named : ∀ u ∈ plans, u.wouldRun = true → declared.get? u.name ≠ none)
    (ran : jobs w declared plans m = (.error reason, m')) (other : ∀ f, reason ≠ .failure f) :
    ∃ before v, visits w declared plans m = before ++ [v] ∧ reason.Escapes ∧
      ∃ m₁, v.result w = (.error reason, m₁) := by
  rcases stop_of_jobs ran with ⟨u, listed, would, missing, -⟩ |
    ⟨before, v, j, r, m₁, split, -, result, closed⟩
  · exact absurd missing (named u listed would)
  · rcases closeJob_of_error v.job j r m₁ with ⟨f, -, same⟩ | ⟨-, same⟩
    · cases same.symm.trans closed
      exact absurd rfl (other _)
    · cases same.symm.trans closed
      exact ⟨before, v, split, (Visit.stops result).escapes other, _, result⟩

/-- What escapes from a step that is reached leaves the run, if its jobs are declared. -/
theorem jobs_of_escaped (named : ∀ u ∈ plans, u.wouldRun = true → declared.get? u.name ≠ none)
    {v : Visit} (member : v ∈ visits w declared plans m) (stopped : (v.result w).1 = .error reason)
    (escapes : reason.Escapes) : jobs w declared plans m = (.error reason, (v.result w).2) := by
  have handed : Handed _ _ [] (visits w declared plans m) (jobs w declared plans m) :=
    (handsOn_endsWell w).jobs fun _ none => by simp at none
  rcases ran : jobs w declared plans m with ⟨other | done, m'⟩
  · rcases stop_of_jobs ran with ⟨u, listed, would, missing, -⟩ |
      ⟨before, u, j, r, m₁, split, -, result, closed⟩
    · exact absurd missing (named u listed would)
    -- Every step but the last one ends well, so it is there that the run was stopped.
    have last : v = u := by
      rw [split] at member
      rcases List.mem_append.mp member with earlier | last
      · have well := handed.final v (by simpa [split] using earlier)
        rw [well] at stopped
        cases stopped
      · exact List.mem_singleton.mp last
    subst last
    rw [result] at stopped ⊢
    cases stopped
    rcases closeJob_of_error v.job j reason m₁ with ⟨f, rfl, -⟩ | ⟨-, same⟩
    · exact absurd escapes id
    · cases same.symm.trans closed
      rfl
  · have well := handed.passed done m' ran v member
    rw [well] at stopped
    cases stopped

end Run

theorem overflows_iff_of_judge? {c : Context} {expression : String} :
    c.Overflows expression ↔ ∃ fault, judge? c expression = .error fault := by
  rw [← not_iff_not, ← exists_judge?_iff]
  cases judge? c expression <;> simp

section Execution

variable {w : World} {workingDir directory : String} {workflow : Workflow} {p : Plan} {c : Context}

/-- The job that is done when a run fails is recorded as failed or cancelled. -/
theorem recorded_of_execute {report : Report}
    (named : ∀ u ∈ p.jobs, u.wouldRun = true → workflow.jobs.get? u.name ≠ none)
    (ended : (workflow.execute w workingDir (.ok directory) p c).ending = .failed report) :
    ∃ run, (workflow.execute w workingDir (.ok directory) p c).state.bind RunState.job = some run ∧
      (run.status = .failure ∨ run.status = .cancelled) ∧
      (workflow.execute w workingDir (.ok directory) p c).context.jobs.get? run.name =
        some ⟨run.status.text, ∅⟩ := by
  obtain ⟨f', m', ran, rfl⟩ := failed_of_execute ended
  rw [execute_of_directory, ran]
  rcases Run.stop_of_jobs ran with ⟨u, listed, would, missing, -⟩ |
    ⟨before, v, j, r, m₁, split, -, result, closed⟩
  · exact absurd missing (named u listed would)
  have member : v ∈ Run.visits w workflow.jobs p.jobs (.initial workingDir directory c) := by
    rw [split]
    exact List.mem_append_right _ List.mem_cons_self
  -- The job that is done in the end is still that of the last step.
  obtain ⟨j', -, -, running⟩ := Run.mem_visits member
  have kept := (v.grounded_result w).job
  rw [result, running] at kept
  rcases Run.closeJob_of_error v.job j r m₁ with ⟨f, rfl, same⟩ | ⟨other, same⟩
  · cases same.symm.trans closed
    refine ⟨⟨v.job, j', Run.endOf f, ∅⟩, ?_, ?_, ?_⟩
    · change (m₁.state.job.map fun j => { j with status := Run.endOf f }) = _
      rw [kept]
      rfl
    · change Run.endOf f = .failure ∨ Run.endOf f = .cancelled
      unfold Run.endOf
      split
      · exact .inr rfl
      · exact .inl rfl
    · exact (Bindings.get?_insert _ _ _ _).trans (if_pos rfl)
  · cases same.symm.trans closed
    exact absurd rfl (other f')

end Execution

namespace FileTree

variable {t : FileTree} {here directory p : Path} {place : List String} {bytes : List UInt8}

theorem metadataFile?_of_find {name : String} {rest : List String} (names : metadataNames = name :: rest)
    (found : t.find here (directory.child name) = .ok (place, .file bytes)) :
    t.metadataFile? here directory = .ok (some (directory.child name)) := by
  have file : t.isFile here (directory.child name) = .ok true := by
    rw [isFile, look, found]
    rfl
  rw [metadataFile?, names, List.map_cons, List.findM?, file]
  rfl

/-- Metadata break their reader if the bytes of their file are no text. -/
theorem actionMetadata_of_undecodable {piece : Text.Utf8.Piece}
    (file : t.metadataFile? here directory = .ok (some p))
    (found : t.find here p = .ok (place, .file bytes)) (malformed : Text.Utf8.decode bytes = .error piece) :
    t.actionMetadata here directory = .error (.broken (.text (.undecodable piece bytes))) := by
  simp only [actionMetadata, file, readMetadata, readText, read, found, malformed]
  rfl

end FileTree

section Sample

/-- The files of an action whose metadata are one byte that is no text. -/
def FileTree.undecodable : FileTree :=
  ⟨[(["work", "act", "action.yml"], .file [255])]⟩

/-- An idle world in which metadata are read from files. -/
def World.reading (files : FileTree) : World :=
  { World.idle with metadata := fun directory =>
      files.actionMetadata (Path.parse "/") (Path.parse directory) }

private def actingStep : Step := { (default : Step) with uses := "./act" }

/-- A job with a step that uses an action of the workspace. -/
def Workflow.acting : Workflow where
  name := "acting"
  on := .text "push"
  env := ∅
  jobs := .ofList [("build", { (default : Job) with steps := [actingStep] })]

/-- The run of the plan in the world with these files. -/
def Plan.runActing (p : Plan) : Outcome :=
  Workflow.acting.execute (.reading .undecodable) "/work" (.ok "/files") p .sample

set_option maxRecDepth 10000 in
theorem metadata_undecodable :
    (World.reading .undecodable).metadata "/work/act" =
      .error (.broken (.text (.undecodable ⟨0, 1, .error .startByte⟩ [255]))) := by
  have read : Path.parse "/work/act" = ⟨1, ["work", "act"]⟩ := by cbv
  have file : (Path.mk 1 ["work", "act"]).child "action.yml" = ⟨1, ["work", "act", "action.yml"]⟩ := by
    cbv
  have root : Path.parse "/" = ⟨1, []⟩ := by cbv
  have text : (Path.mk 1 ["work", "act", "action.yml"]).text = "/work/act/action.yml" := by cbv
  have plain : "/work/act/action.yml".toList.contains (Char.ofNat 0) = false := by cbv
  have short : ¬longestPath < "/work/act/action.yml".utf8ByteSize := by decide +kernel
  have walked : FileTree.undecodable.walk "/work/act/action.yml" [] ["work", "act", "action.yml"] =
      .ok (["work", "act", "action.yml"], .file [255]) := by cbv
  have found : FileTree.undecodable.find ⟨1, []⟩ ⟨1, ["work", "act", "action.yml"]⟩ =
      .ok (["work", "act", "action.yml"], .file [255]) := by
    rw [FileTree.find, text, plain, if_neg Bool.false_ne_true, if_neg short]
    exact walked
  have malformed : Text.Utf8.decode [255] = .error ⟨0, 1, .error .startByte⟩ := by cbv
  change FileTree.undecodable.actionMetadata (Path.parse "/") (Path.parse "/work/act") = _
  rw [root, read]
  exact FileTree.actionMetadata_of_undecodable
    (FileTree.metadataFile?_of_find rfl (file ▸ found)) (file ▸ found) malformed

set_option maxRecDepth 10000 in
theorem plan_acting :
    (Workflow.acting.plan .sample).toOption.map (fun p =>
      p.jobs.map fun v => (v.name, v.wouldRun)) = some [("build", true)] := by
  cbv

/-- Where the run comes to its step. -/
def Visit.acting : Visit :=
  ⟨"build", 1, 1, actingStep,
    (Run.openJob "build" { (default : Job) with steps := [actingStep] }
      (.initial "/work" "/files" .sample)).2⟩

theorem readsBroken_acting :
    Visit.acting.ReadsBroken (.reading .undecodable)
      (.text (.undecodable ⟨0, 1, .error .startByte⟩ [255])) := by
  refine ⟨.inl rfl, rfl, ?_⟩
  have named : ActionRef.parse actingStep.uses "main" = .path "./act" := by cbv
  have files : ((Path.parse "/work").child "./act").text = "/work/act" := by cbv
  have asked : (World.reading .undecodable).metadataOf? "/work" actingStep =
      some ((World.reading .undecodable).metadata ((Path.parse "/work").child "./act").text) :=
    World.metadataOf?_of_path named "/work"
  rw [files, metadata_undecodable] at asked
  exact asked

theorem exists_run_acting :
    ∃ p, Workflow.acting.plan .sample = .ok p ∧
      (∀ u ∈ p.jobs, u.wouldRun = true → Workflow.acting.jobs.get? u.name ≠ none) ∧
      Visit.acting ∈ Workflow.acting.visits (.reading .undecodable) "/work" (.ok "/files") p .sample := by
  obtain ⟨p, planned, verdicts⟩ := exists_of_map_toOption plan_acting
  obtain ⟨v, jobs, same⟩ := List.map_eq_singleton_iff.mp verdicts
  obtain ⟨name, would⟩ := Prod.mk.inj same
  refine ⟨p, planned, fun u member _ => ?_, ?_⟩
  · rw [jobs] at member
    rw [List.mem_singleton.mp member, name]
    exact Option.some_ne_none _
  · have declared : Workflow.acting.jobs.get? v.name =
        some { (default : Job) with steps := [actingStep] } := by
      rw [name]
      rfl
    change Visit.acting ∈ Run.visits _ Workflow.acting.jobs p.jobs _
    rw [jobs, Run.visits, if_pos would, Run.visitsOfJob, declared, name]
    exact List.mem_append_left _ (List.mem_append_left _ List.mem_cons_self)

end Sample

end Drydock
