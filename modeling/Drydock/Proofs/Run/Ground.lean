import Drydock.Proofs.Plan.Existence
import Drydock.Proofs.Run.Stopping

set_option autoImplicit false
set_option relaxedAutoImplicit false

/-!
Where steps stand. Main statements: no step changes the working directory, the directory of the files
or the job that is done, so each step that is reached belongs to the job of that moment; and no step
changes the trigger, the secrets or the matrix, so a condition that cannot be judged when it is reached
could not be judged when the run began.
-/

namespace Drydock

namespace Channel

theorem directory_set (c : Channel) (slot : Slot) (s : FileState) :
    (c.set slot s).directory = c.directory := by
  cases slot <;> rfl

theorem directory_drain (c : Channel) (slot : Slot) : (c.drain slot).1.directory = c.directory := by
  unfold drain
  split
  · exact directory_set c slot _
  · rfl

theorem directory_collect (c : Channel) : c.collect.1.directory = c.directory := by
  have first := directory_drain c .env
  unfold collect
  rcases drained : c.drain .env with ⟨c₁, fault | env⟩ <;> rw [drained] at first
  · exact first
  have second := directory_drain c₁ .output
  dsimp only
  rcases drained' : c₁.drain .output with ⟨c₂, fault | outputs⟩ <;> rw [drained'] at second <;>
    exact second.trans first

end Channel

namespace Machine

/-- The working directory, the directory of the files and the job that is done are the same. -/
structure Grounded (m m' : Machine) : Prop where
  workingDir : m'.state.workingDir = m.state.workingDir
  directory : m'.state.channel.map Channel.directory = m.state.channel.map Channel.directory
  job : m'.state.job = m.state.job

/-- What conditions read that no step ever sets is the same. -/
structure SameSources (m m' : Machine) : Prop where
  github : m'.context.github = m.context.github
  secrets : m'.context.secrets = m.context.secrets
  matrix : m'.context.matrix = m.context.matrix

variable {m m' : Machine} {n : Nat}

instance : IsPreorder Machine Grounded where
  refl _ := ⟨rfl, rfl, rfl⟩
  trans _ _ _ first second := ⟨second.workingDir.trans first.workingDir,
    second.directory.trans first.directory, second.job.trans first.job⟩

instance : IsPreorder Machine SameSources where
  refl _ := ⟨rfl, rfl, rfl⟩
  trans _ _ _ first second := ⟨second.github.trans first.github,
    second.secrets.trans first.secrets, second.matrix.trans first.matrix⟩

theorem Turns.sameSources (turns : Turns n m m') : SameSources m m' :=
  ⟨by rw [turns.context], by rw [turns.context], by rw [turns.context]⟩

theorem Around.sameSources (around : Around m m') : SameSources m m' :=
  ⟨by rw [around.context], by rw [around.context], by rw [around.context]⟩

theorem grounded_collect (m : Machine) : Grounded m (Run.collect m).2 := by
  unfold Run.collect
  split
  · exact refl_of Grounded m
  · rename_i c opened
    refine ⟨rfl, ?_, rfl⟩
    simp [opened, Channel.directory_collect]

/-- A condition meets an integer beyond bounds in the data of a machine exactly if it does in any other
with the same trigger, secrets and matrix, for all other data are texts. -/
theorem SameSources.overflows_iff (same : SameSources m m') (expression : String) :
    m'.context.Overflows expression ↔ m.context.Overflows expression := by
  have sizes (path : String) : Expr.SameSize ((m'.context.lookup path).getD .null)
      ((m.context.lookup path).getD .null) := by
    simp only [Context.lookup, Context.lookupSegments]
    split
    · rw [same.github]
      exact ⟨rfl, rfl⟩
    · refine Expr.sameSize_of_text ?_ ?_
      · cases m'.context.env.get? _ <;> simp
      · cases m.context.env.get? _ <;> simp
    · rw [same.secrets]
      exact ⟨rfl, rfl⟩
    · rw [same.matrix]
      exact ⟨rfl, rfl⟩
    · exact Expr.sameSize_of_text (Completion.plain_lookup _ _ _) (Completion.plain_lookup _ _ _)
    · exact Expr.sameSize_of_text (Completion.plain_lookup _ _ _) (Completion.plain_lookup _ _ _)
    · exact ⟨rfl, rfl⟩
  have faults (fault : Expr.Fault) :
      Expr.evaluate m'.context.lookup expression = .error fault ↔
        Expr.evaluate m.context.lookup expression = .error fault :=
    Expr.evaluate_eq_error_iff fun path _ => sizes path
  exact or_congr (faults _) (faults _)

end Machine

open Machine (Grounded SameSources Works)

theorem Run.workFrame_grounded : Run.WorkFrame Grounded where
  noted _ _ := ⟨rfl, rfl, rfl⟩
  ensured m := by
    refine ⟨rfl, ?_, rfl⟩
    change (m.state.channel.map Channel.ensureFiles).map Channel.directory = _
    rw [Option.map_map]
    rfl
  done {m d c c'} opened applied := by
    obtain ⟨s, same, -⟩ := d.set_of_apply applied
    refine ⟨rfl, ?_, rfl⟩
    simp [opened, same, Channel.directory_set]
  live _ _ := ⟨rfl, rfl, rfl⟩

namespace Visit

variable {v : Visit}

/-- Whatever becomes of it, a step leaves where it stands as it was. -/
theorem grounded_result (w : World) (v : Visit) : Grounded v.start (v.result w).2 := by
  have arrived : Grounded v.start (v.arrival.begin_ v.step) := ⟨rfl, rfl, rfl⟩
  have worked (kind : StepKind) :
      Grounded v.start (Run.work w v.step kind (v.arrival.begin_ v.step)).2 :=
    trans_of Grounded arrived (Run.workFrame_grounded.work v.step kind (v.arrival.begin_ v.step))
  have comes := v.comes w
  generalize (v.result w).1 = outcome, (v.result w).2 = m at comes
  cases comes with
  | unjudged fault judged => exact ⟨rfl, rfl, rfl⟩
  | skipped refused => exact ⟨rfl, rfl, rfl⟩
  | done admitted kind values m₁ m₂ works ran collected =>
    have before := worked kind
    have taken := Machine.grounded_collect m₁
    rw [ran] at before
    rw [collected] at taken
    have delivered : Grounded m₂ ((m₂.deliver v.step values).emit (.stepSucceeded v.step.displayName)) :=
      ⟨rfl, rfl, rfl⟩
    exact trans_of _ before (trans_of _ taken delivered)
  | failed admitted reason m failed =>
    obtain ⟨m₁, grounded, rfl | ⟨f, rfl⟩⟩ := Run.of_step_eq_error (P := fun m => Grounded v.start m)
      arrived worked (fun m₁ before => trans_of _ before (Machine.grounded_collect m₁)) failed
    · exact grounded
    · have deplored : Grounded m₁ (m₁.deplore v.step f) := ⟨rfl, rfl, rfl⟩
      exact trans_of _ grounded deplored

theorem sameSources_result (w : World) (v : Visit) : SameSources v.start (v.result w).2 :=
  (Run.keeps_reach w v.step v.index v.total v.start).sameSources

end Visit

namespace Run

variable {w : World} {declared : Bindings Job} {m : Machine}

/-- What holds where a run is, besides what its steps hand on. -/
structure Stands (workingDir directory : String) (m₀ m : Machine) : Prop where
  workingDir : m.state.workingDir = workingDir
  directory : m.state.channel.map Channel.directory = some directory
  sources : SameSources m₀ m

theorem Stands.result {workingDir directory : String} {m₀ : Machine} {v : Visit}
    (stands : Stands workingDir directory m₀ v.start) (w : World) :
    Stands workingDir directory m₀ (v.result w).2 :=
  ⟨(v.grounded_result w).workingDir.trans stands.workingDir,
    (v.grounded_result w).directory.trans stands.directory,
    trans_of _ stands.sources (v.sameSources_result w)⟩

theorem Stands.around {workingDir directory : String} {m₀ m' : Machine}
    (stands : Stands workingDir directory m₀ m) (around : Machine.Around m m') :
    Stands workingDir directory m₀ m' := by
  refine ⟨?_, ?_, trans_of _ stands.sources around.sameSources⟩
  · rw [around.state]
    exact stands.workingDir
  · rw [around.state]
    exact stands.directory

theorem handsOn_stands (w : World) (workingDir directory : String) (m₀ : Machine) :
    HandsOn w (fun _ m => Stands workingDir directory m₀ m)
      (fun _ m => Stands workingDir directory m₀ m) where
  around around stands := stands.around around
  passed stands ended := by simpa [ended] using stands.result w
  stopped stands ended := by simpa [ended] using stands.result w
  aroundFinal around stands := stands.around around
  final_of_going stands := stands

theorem mem_visitsOfSteps {name : String} {total index : Nat} {steps : List Step} {v : Visit}
    (member : v ∈ visitsOfSteps w name total index steps m) :
    v.job = name ∧ v.step ∈ steps ∧ v.start.state.job = m.state.job := by
  induction steps generalizing index m with
  | nil => cases member
  | cons s r ih =>
    rcases List.mem_append.mp member with first | later
    · obtain rfl := List.mem_singleton.mp first
      exact ⟨rfl, List.mem_cons_self, rfl⟩
    · have kept := (Visit.grounded_result w ⟨name, index, total, s, m⟩).job
      rcases ended : Visit.result w ⟨name, index, total, s, m⟩ with ⟨reason | _, m₁⟩
      · rw [ended] at later
        cases later
      · -- The first step has left the job in place, so a later one finds it as the first did.
        rw [ended] at later kept
        obtain ⟨job, listed, same⟩ := ih later
        exact ⟨job, List.mem_cons_of_mem s listed, same.trans kept⟩

theorem mem_visitsOfJob {name : String} {v : Visit} (member : v ∈ visitsOfJob w declared name m) :
    ∃ j, declared.get? v.job = some j ∧ v.step ∈ j.steps ∧
      v.start.state.job = some ⟨v.job, j, .inProgress, ∅⟩ := by
  unfold visitsOfJob at member
  cases found : declared.get? name with
  | none =>
    rw [found] at member
    cases member
  | some j =>
    rw [found] at member
    obtain ⟨rfl, listed, running⟩ := mem_visitsOfSteps member
    exact ⟨j, found, listed, running⟩

/-- A step that is reached is one that its job declares, and its job is the one that is done then. -/
theorem mem_visits {plans : List JobPlan} {v : Visit} (member : v ∈ visits w declared plans m) :
    ∃ j, declared.get? v.job = some j ∧ v.step ∈ j.steps ∧
      v.start.state.job = some ⟨v.job, j, .inProgress, ∅⟩ := by
  induction plans generalizing m with
  | nil => cases member
  | cons p r ih =>
    unfold visits at member
    split at member
    · rcases List.mem_append.mp member with own | later
      · exact mem_visitsOfJob own
      · rcases ended : job w declared p.name m with ⟨reason | done, m₁⟩
        · rw [ended] at later
          cases later
        · rw [ended] at later
          exact ih later
    · exact ih member

end Run

section Execution

variable {w : World} {workingDir directory : String} {workflow : Workflow} {p : Plan} {c : Context}

theorem stands_of_visit {v : Visit} (member : v ∈ workflow.visits w workingDir (.ok directory) p c) :
    Run.Stands workingDir directory (.initial workingDir directory c) v.start := by
  obtain ⟨before, after, split⟩ := List.append_of_mem member
  have start : Run.Stands workingDir directory (.initial workingDir directory c)
      (.initial workingDir directory c) := ⟨rfl, rfl, refl_of _ _⟩
  have handed : Run.Handed _ _ [] (workflow.visits w workingDir (.ok directory) p c)
      (Run.jobs w workflow.jobs p.jobs (.initial workingDir directory c)) :=
    (Run.handsOn_stands w workingDir directory _).jobs start
  exact handed.at_ before v after split

theorem accounted_of_visit {earlier later : List Visit} {v : Visit}
    (split : workflow.visits w workingDir (.ok directory) p c = earlier ++ v :: later) :
    Visit.Accounted w c earlier v.start.state v.start.context ∧ v.start.IsBlank := by
  have start : Visit.Accounted w c [] (Machine.initial workingDir directory c).state c :=
    ⟨rfl, rfl, fun _ => rfl⟩
  have blank : (Machine.initial workingDir directory c).IsBlank :=
    ⟨_, rfl, Channel.isBlank_opened directory⟩
  exact (Run.jobs_accounted w workflow.jobs p.jobs start blank).at_ earlier v later split

end Execution

end Drydock
