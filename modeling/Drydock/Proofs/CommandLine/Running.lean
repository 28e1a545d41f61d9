import Drydock.Proofs.CommandLine.Asking
import Drydock.Proofs.Run.Agreement
import Drydock.Proofs.Run.Interruption
import Drydock.Proofs.Traversal
import Mathlib

set_option autoImplicit false
set_option relaxedAutoImplicit false

/-!
Runs that are asked for. Main statement: the exit status tells whether a run was ready and finished,
was interrupted, or neither; the engine is only asked whether it is there until a run is ready.
-/

namespace Drydock

/-- The words that tell the success of a workflow, before its name. -/
def Console.successWords : String := "WORKFLOW SUCCESS: "

namespace Console

variable {name : String}

theorem toString_text (text : String) : toString text = text := rfl

theorem success_not_mem_failure (debug : Bool) (label reason hint : String) (code : Option Int)
    (isJob : Bool) : successWords ++ name ∉ failure debug label reason code hint isJob := by
  unfold failure successWords
  dsimp only
  generalize (if reason = "" then _ else _) = first
  split_ifs <;> cases code <;> simp [toString_text, ← String.toList_inj]

theorem success_not_mem_runStarted (workflow directory event ref : String) :
    successWords ++ name ∉ runStarted workflow directory event ref := by
  unfold runStarted successWords
  split_ifs <;> simp [toString_text, ← String.toList_inj]

theorem success_mem_workflowResult {workflow : String} {success : Bool} :
    successWords ++ name ∈ workflowResult workflow success ↔ success = true ∧ name = workflow := by
  have bar : String.ofList (List.replicate 40 '=') =
      "========================================" := by decide +kernel
  unfold workflowResult successWords
  rw [bar]
  cases success <;> simp [← String.toList_inj]

end Console

namespace Event

open Console (successWords toString_text)

variable {name : String}

theorem success_not_mem_lines (debug : Bool) (e : Event) :
    successWords ++ name ∉ e.lines debug := by
  unfold successWords
  cases e with
  | stepFailed label failure => exact Console.success_not_mem_failure debug label _ _ _ _
  | jobStarted job => simp [lines, Console.jobStart, toString_text, ← String.toList_inj]
  | stepReached index total label => simp [lines, Console.step, toString_text, ← String.toList_inj]
  | stepSkipped => simp [lines, ← String.toList_inj]
  | stepSucceeded label => simp [lines, Console.stepSuccess, toString_text, ← String.toList_inj]
  | jobFailed job => simp [lines, Console.jobFailure, toString_text, ← String.toList_inj]
  | jobSucceeded job outputs =>
    simp [lines, Console.jobOutputs, Console.jobSuccess, toString_text, ← String.toList_inj]
  | envSet key value => simp [lines, Console.envSet, toString_text, ← String.toList_inj]
  | outputSet id key value => simp [lines, Console.outputSet, toString_text, ← String.toList_inj]
  | imageChosen image => simp [lines, Console.imagePull, toString_text, ← String.toList_inj]
  | containerOutput text => simp [lines, Console.containerOutput, ← String.toList_inj]
  | _ => simp [lines]

theorem success_not_mem_console (debug : Bool) (es : List Event) :
    successWords ++ name ∉ console debug es := by
  unfold console
  rw [List.mem_flatMap]
  rintro ⟨e, -, said⟩
  exact success_not_mem_lines debug e said

end Event

namespace Run

/-- Every job that is done when jobs are done has succeeded. -/
theorem status_of_jobs {w : World} {declared : Bindings Job} {plans : List JobPlan} {m m' : Machine}
    {done : List JobRun} (ran : jobs w declared plans m = (.ok done, m')) :
    ∀ run ∈ done, run.status = .success := by
  induction plans generalizing m done with
  | nil =>
    cases ran
    simp
  | cons p r ih =>
    cases h : p.wouldRun with
    | true =>
      rw [jobs_cons_of_run h] at ran
      obtain ⟨first, m₁, next, ran⟩ := bind_eq_ok.mp ran
      obtain ⟨rest, m₂, ran, same⟩ := bind_eq_ok.mp ran
      cases same
      exact List.forall_mem_cons.mpr ⟨(completed_of_job next).status, ih ran⟩
    | false =>
      rw [jobs_cons_of_skip h] at ran
      obtain ⟨_, m₁, -, ran⟩ := bind_eq_ok.mp ran
      exact ih ran

end Run

namespace CommandLine

/-- An answer tells that a workflow succeeded. -/
def Response.TellsSuccess (r : Response) : Prop :=
  ∃ name, Console.successWords ++ name ∈ r.output

namespace Surroundings

variable {s : Surroundings} {debug : Bool} {path workingDir : String} {t : TriggerOptions}

/-- The data that a run of a checkout begins with. -/
def runContext (s : Surroundings) (t : TriggerOptions) (checkout : Context.Checkout) : Context :=
  .initial checkout t.event t.ref none (Context.parseSecrets t.secrets) s.environ

/-- All that has to be there before a run begins: settings, the workflow, a checkout, a plan, and
the engine. -/
structure Ready (s : Surroundings) (path : String) (t : TriggerOptions) (workingDir : String) where
  settings : Settings
  workflow : Workflow
  checkout : Context.Checkout
  plan : Plan
  configured : Settings.ofEnvironment s.environ = .ok settings
  loaded : s.files.readWorkflow s.currentDir (Path.parse path) = .ok workflow
  located : s.checkout workingDir = .ok checkout
  planned : workflow.plan (s.runContext t checkout) = .ok plan
  engaged : s.engine.refuses [] .ping = none

theorem workflow_eq_ok {w : Workflow} :
    s.workflow debug path = .ok w ↔
      s.files.readWorkflow s.currentDir (Path.parse path) = .ok w := by
  unfold Surroundings.workflow
  exact mapError_eq_ok

theorem context_eq_ok {c : Context} :
    s.context debug t workingDir = .ok c ↔
      ∃ checkout, s.checkout workingDir = .ok checkout ∧ s.runContext t checkout = c := by
  unfold Surroundings.context
  cases s.checkout workingDir <;> simp [runContext]

theorem plan_eq_ok {w : Workflow} {c : Context} {p : Plan} :
    Surroundings.plan debug w c = .ok p ↔ w.plan c = .ok p := by
  unfold Surroundings.plan
  exact mapError_eq_ok

namespace Ready

/-- The directory of the workspace. -/
def directory (_ : s.Ready path t workingDir) : Path :=
  Path.absolute s.currentDir (Path.parse workingDir)

/-- What is said when the run begins. -/
def started (r : s.Ready path t workingDir) : List String :=
  Console.runStarted (nameOr r.workflow (Path.parse path).name) r.directory.real.text t.event
    (s.runContext t r.checkout).github.ref

/-- What comes of the run. -/
def outcome (r : s.Ready path t workingDir) : Outcome :=
  r.workflow.execute (s.world r.settings) r.directory.text s.scratch r.plan
    (s.runContext t r.checkout)

/-- The steps that the run reaches. -/
def visits (r : s.Ready path t workingDir) : List Visit :=
  r.workflow.visits (s.world r.settings) r.directory.text s.scratch r.plan
    (s.runContext t r.checkout)

theorem run_eq (r : s.Ready path t workingDir) (debug : Bool) :
    s.run debug path t workingDir = ended debug r.workflow path r.settings r.started r.outcome := by
  have loaded : s.workflow debug path = .ok r.workflow := workflow_eq_ok.mpr r.loaded
  have located : s.context debug t workingDir = .ok (s.runContext t r.checkout) :=
    context_eq_ok.mpr ⟨r.checkout, r.located, rfl⟩
  have planned : Surroundings.plan debug r.workflow (s.runContext t r.checkout) = .ok r.plan :=
    plan_eq_ok.mpr r.planned
  unfold run
  simp only [r.configured, loaded, located, planned, r.engaged, Except.mapError, bind, Except.bind]
  rfl

/-- A run is stopped as interrupted exactly if a step that it reaches is interrupted. -/
theorem interrupted_iff (r : s.Ready path t workingDir) :
    (∃ message, r.outcome.ending = .stopped (.interrupted message)) ↔
      ∃ v ∈ r.visits, ∃ message, v.Interrupted (s.world r.settings) message := by
  have named : ∀ u ∈ r.plan.jobs, u.wouldRun = true → r.workflow.jobs.get? u.name ≠ none := by
    intro u member _
    obtain ⟨earlier, later, split⟩ := List.mem_iff_append.mp member
    obtain ⟨j, found, -⟩ := (foreseen_of_plan r.planned).judged earlier u later split
    simp [found]
  constructor
  · rintro ⟨message, ended⟩
    obtain ⟨v, member, interrupted⟩ := (Workflow.execute_eq_interrupted named).mp ended
    exact ⟨v, member, message, interrupted⟩
  · rintro ⟨v, member, message, interrupted⟩
    exact ⟨message, (Workflow.execute_eq_interrupted named).mpr ⟨v, member, interrupted⟩⟩

/-- A run that finishes has done the jobs that would run, and each of them has succeeded. -/
theorem succeeded_of_finished (r : s.Ready path t workingDir) {done : List JobRun}
    (finished : r.outcome.ending = .finished done) :
    done.map JobRun.name = r.plan.runnable.map JobPlan.name ∧
      (∀ run ∈ done, run.status = .success) ∧
      ∀ v ∈ r.plan.jobs, v.wouldRun = true →
        (r.outcome.context.jobs.get? v.name).map Completion.status = some statusSuccess := by
  obtain ⟨directory, m, -, ran, context⟩ := jobs_of_execute finished
  obtain ⟨names, mirrors, -, -⟩ := Run.done_of_jobs ran
  refine ⟨names, Run.status_of_jobs ran, fun v member would => ?_⟩
  have nodup := (foreseen_of_plan r.planned).names_nodup
  change (Bindings.get? (Workflow.execute _ _ _ _ _ _).context.jobs v.name).map _ = _
  rw [context, (mirrors _ (.refl _)).status, get?_recordPlans_of_mem nodup member]
  exact congrArg some (JobPlan.status_eq_success_iff.mpr would)

end Ready


/-- What keeps a run from beginning: an answer that only complains, after no other call than to see
whether the engine is there, or a fault that nothing of a run has brought about. -/
inductive Prevents : Halt → Prop
  | refused {response : Response} (code : response.exitCode = 1) (silent : response.output = [])
      (calls : Event.calls response.events ⊆ [.ping]) : Prevents (.answer response)
  | settings (fault : SettingsFault) : Prevents (.escape (.settings fault))
  | read (fault : ReadFault) : Prevents (.escape (.read fault))
  | plan (fault : PlanFault) : Prevents (.escape (.plan fault))

theorem prevents_refused (debug : Bool) (title message suggestion : String) :
    Prevents (.answer (.refused debug title message suggestion)) :=
  .refused rfl rfl (by simp [Response.refused, Event.calls])

theorem prevents_of_workflow {halt : Halt} (kept : s.workflow debug path = .error halt) :
    Prevents halt := by
  unfold Surroundings.workflow at kept
  dsimp only at kept
  cases read : s.files.readWorkflow s.currentDir (Path.parse path) with
  | error fault =>
    rw [read] at kept
    obtain rfl := Except.error.inj kept
    dsimp only
    split
    · exact prevents_refused _ _ _ _
    · exact .read fault
  | ok w =>
    rw [read] at kept
    cases kept

theorem prevents_of_context {halt : Halt} (kept : s.context debug t workingDir = .error halt) :
    Prevents halt := by
  unfold Surroundings.context at kept
  cases found : s.checkout workingDir with
  | error message =>
    rw [found] at kept
    cases kept
    exact prevents_refused _ _ _ _
  | ok checkout =>
    rw [found] at kept
    cases kept

theorem prevents_of_plan {w : Workflow} {c : Context} {halt : Halt}
    (kept : Surroundings.plan debug w c = .error halt) : Prevents halt := by
  unfold Surroundings.plan at kept
  cases planned : w.plan c with
  | error fault =>
    rw [planned] at kept
    obtain rfl := Except.error.inj kept
    dsimp only
    split
    · exact prevents_refused _ _ _ _
    · exact .plan _
  | ok p =>
    rw [planned] at kept
    cases kept

/-- Either a run is ready, or it is kept from beginning. -/
theorem run_cases (s : Surroundings) (debug : Bool) (path : String) (t : TriggerOptions)
    (workingDir : String) :
    Nonempty (s.Ready path t workingDir) ∨
      ∃ halt, s.run debug path t workingDir = .error halt ∧ Prevents halt := by
  unfold run
  cases configured : Settings.ofEnvironment s.environ with
  | error fault => exact .inr ⟨_, rfl, .settings fault⟩
  | ok settings =>
    cases loaded : s.workflow debug path with
    | error halt => exact .inr ⟨halt, rfl, prevents_of_workflow loaded⟩
    | ok w =>
      cases located : s.context debug t workingDir with
      | error halt => exact .inr ⟨halt, rfl, prevents_of_context located⟩
      | ok c =>
        cases planned : Surroundings.plan debug w c with
        | error halt =>
          refine .inr ⟨halt, ?_, prevents_of_plan planned⟩
          simp only [Except.mapError, bind, Except.bind, planned]
        | ok p =>
          cases engaged : s.engine.refuses [] .ping with
          | some message =>
            simp only [Except.mapError, bind, Except.bind, planned]
            exact .inr ⟨_, rfl, .refused rfl rfl (List.Subset.refl _)⟩
          | none =>
            obtain ⟨checkout, found, rfl⟩ := context_eq_ok.mp located
            exact .inl ⟨settings, w, checkout, p, configured, workflow_eq_ok.mp loaded, found,
              plan_eq_ok.mp planned, engaged⟩

/-- Unless a run is ready, the engine is asked no more than whether it is there. -/
theorem run_of_not_ready (unready : IsEmpty (s.Ready path t workingDir)) {e : Engine}
    (same : e.refuses [] .ping = s.engine.refuses [] .ping) :
    { s with engine := e }.run debug path t workingDir = s.run debug path t workingDir := by
  refine bind_congr_ok fun settings configured => bind_congr_ok fun w loaded =>
    bind_congr_ok fun c located => bind_congr_ok fun p planned => ?_
  cases engaged : s.engine.refuses [] .ping with
  | some message =>
    dsimp only
    rw [same, engaged]
  | none =>
    obtain ⟨checkout, found, rfl⟩ := context_eq_ok.mp located
    exact unready.elim ⟨settings, w, checkout, p, mapError_eq_ok.mp configured,
      workflow_eq_ok.mp loaded, found, plan_eq_ok.mp planned, engaged⟩

/-- The exit status of a request for a run that ends so. -/
def statusOf : RunEnd → Nat
  | .finished _ => 0
  | .stopped (.interrupted _) => Response.interruptedCode
  | .failed _ | .stopped _ => 1

variable {ending : RunEnd}

theorem statusOf_eq_zero : statusOf ending = 0 ↔ ∃ done, ending = .finished done := by
  rcases ending with done | report | (f | fault | message | fault | fault) <;>
    simp [statusOf, Response.interruptedCode]

theorem statusOf_eq_interrupted :
    statusOf ending = Response.interruptedCode ↔
      ∃ message, ending = .stopped (.interrupted message) := by
  rcases ending with done | report | (f | fault | message | fault | fault) <;>
    simp [statusOf, Response.interruptedCode]

theorem statusOf_mem : statusOf ending ∈ [0, 1, Response.interruptedCode] := by
  rcases ending with done | report | (f | fault | message | fault | fault) <;> simp [statusOf]

section Answer

variable {args : List String} {response : Response}

instance : Subsingleton (s.Ready path t workingDir) where
  allEq r r' := by
    obtain ⟨settings, w, checkout, p, configured, loaded, located, planned, engaged⟩ := r
    obtain ⟨settings', w', checkout', p', configured', loaded', located', planned', -⟩ := r'
    obtain rfl := Except.ok.inj (configured.symm.trans configured')
    obtain rfl := Except.ok.inj (loaded.symm.trans loaded')
    obtain rfl := Except.ok.inj (located.symm.trans located')
    obtain rfl := Except.ok.inj (planned.symm.trans planned')
    rfl

namespace Ready

theorem exitStatus_respond (r : s.Ready path t workingDir)
    (asks : s.Asks args debug (.run path t workingDir)) :
    exitStatus (s.respond args) = statusOf r.outcome.ending := by
  rw [asks.respond_eq, answer, r.run_eq]
  unfold ended
  dsimp only
  rcases r.outcome.ending with done | report | (f | fault | message | fault | fault) <;> rfl

/-- What is said of a run tells of success only in the end, and only if the run finishes. -/
theorem tellsSuccess_iff (r : s.Ready path t workingDir)
    (asks : s.Asks args debug (.run path t workingDir))
    (told : s.respond args = .ok response) : response.TellsSuccess ↔ response.exitCode = 0 := by
  have begun (name : String) :
      Console.successWords ++ name ∉ r.started ++ Event.console debug r.outcome.events := by
    rw [List.mem_append, not_or]
    exact ⟨Console.success_not_mem_runStarted _ _ _ _, Event.success_not_mem_console debug _⟩
  rw [asks.respond_eq, answer, r.run_eq] at told
  unfold ended at told
  dsimp only at told
  generalize r.outcome.ending = ending at told
  rcases ending with done | report | (f | fault | message | fault | fault) <;> cases told
  · refine iff_of_true ⟨nameOr r.workflow path, ?_⟩ rfl
    exact List.mem_append_right _ (Console.success_mem_workflowResult.mpr ⟨rfl, rfl⟩)
  · refine iff_of_false ?_ Nat.one_ne_zero
    rintro ⟨name, said⟩
    rcases List.mem_append.mp said with early | late
    · exact begun name early
    · rcases List.mem_append.mp late with reason | result
      · exact Console.success_not_mem_failure _ _ _ _ _ _ reason
      · cases (Console.success_mem_workflowResult.mp result).1
  · refine iff_of_false ?_ (by simp [Response.interruptedCode])
    rintro ⟨name, said⟩
    rcases List.mem_append.mp said with early | late
    · exact begun name early
    · simp [Console.successWords, ← String.toList_inj] at late

end Ready

section Unready

variable (unready : IsEmpty (s.Ready path t workingDir))

include unready

theorem exitStatus_of_not_ready (asks : s.Asks args debug (.run path t workingDir)) :
    exitStatus (s.respond args) = 1 := by
  rcases s.run_cases debug path t workingDir with ⟨⟨r⟩⟩ | ⟨halt, kept, prevents⟩
  · exact unready.elim r
  · rw [asks.respond_eq, answer, kept]
    cases prevents with
    | refused code silent calls => exact code
    | settings fault => rfl
    | read fault => rfl
    | plan fault => rfl

theorem response_of_not_ready (asks : s.Asks args debug (.run path t workingDir))
    (told : s.respond args = .ok response) :
    response.output = [] ∧ Event.calls response.events ⊆ [.ping] := by
  rcases s.run_cases debug path t workingDir with ⟨⟨r⟩⟩ | ⟨halt, kept, prevents⟩
  · exact unready.elim r
  · rw [asks.respond_eq, answer, kept] at told
    cases prevents <;> cases told
    rename_i code silent calls
    exact ⟨silent, calls⟩

end Unready

section Sample

/-- The file of a workflow without jobs. -/
def idleFiles : FileTree :=
  ⟨[(["work", "ci.yml"], .file [])]⟩

theorem asks_run_ci :
    (still idleFiles).Asks ["run", "ci.yml"] false (.run "ci.yml" ⟨"push", "", []⟩ ".") where
  understood := ⟨⟨false, .run, ["ci.yml"]⟩, by decide +kernel⟩
  legal := by
    rintro path found
    obtain rfl : "ci.yml" = path := Option.some.inj found
    decide +kernel
  admitted := by decide +kernel

theorem readWorkflow_ci :
    (still idleFiles).files.readWorkflow (still idleFiles).currentDir (Path.parse "ci.yml") =
      .ok ⟨"", .null, ∅, ∅⟩ := by
  have text : idleFiles.readText (Path.parse "/work") (Path.parse "ci.yml") = .ok "" :=
    eq_ok_of_toOption (by decide +kernel)
  have parsed : Workflow.parse "" = .ok ⟨"", .null, ∅, ∅⟩ := by cbv
  change idleFiles.readWorkflow (Path.parse "/work") (Path.parse "ci.yml") = _
  rw [FileTree.readWorkflow, text]
  exact mapError_eq_ok.mpr parsed

end Sample

end Answer

end Surroundings

end CommandLine

end Drydock
