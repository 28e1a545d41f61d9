import Drydock.Proofs.Run.Progress
import Drydock.Proofs.Traversal

set_option autoImplicit false
set_option relaxedAutoImplicit false

/-!
The steps that a run comes to. Main statement: what every step hands on to the next one, and what is
done around steps leaves alone, holds whenever a step is reached and when the run is over.
-/

namespace Drydock

/-- A step that a run comes to: the job it belongs to, its place there, and the machine then. -/
structure Visit where
  job : String
  index : Nat
  total : Nat
  step : Step
  start : Machine

namespace Visit

/-- The event that announces a step. -/
def mark (v : Visit) : Event :=
  .stepReached v.index v.total v.step.displayName

/-- The machine in which the condition of a step is judged. -/
def arrival (v : Visit) : Machine :=
  v.start.emit v.mark

/-- What becomes of a step. -/
def result (w : World) (v : Visit) : Except Stop Unit × Machine :=
  Run.reach w v.index v.total v.step v.start

end Visit

namespace Run

/-- What there is after something that ends well; there is nothing after anything else. -/
def onward {α β : Type} (rest : Machine → List β) : Except Stop α × Machine → List β
  | (.ok _, m) => rest m
  | (.error _, _) => []

/-- The steps that are reached of those of a job, counting from an index. -/
def visitsOfSteps (w : World) (job : String) (total : Nat) : Nat → List Step → Machine → List Visit
  | _, [], _ => []
  | index, s :: r, m =>
    let v : Visit := ⟨job, index, total, s, m⟩
    [v] ++ onward (fun m => visitsOfSteps w job total (index + 1) r m) (v.result w)

/-- The steps that are reached of a job. -/
def visitsOfJob (w : World) (declared : Bindings Job) (name : String) (m : Machine) : List Visit :=
  match declared.get? name with
  | none => []
  | some j => visitsOfSteps w name j.steps.length 1 j.steps (openJob name j m).2

/-- The steps that are reached of planned jobs. -/
def visits (w : World) (declared : Bindings Job) : List JobPlan → Machine → List Visit
  | [], _ => []
  | p :: r, m =>
    if p.wouldRun then
      visitsOfJob w declared p.name m ++
        onward (fun m => visits w declared r m) (job w declared p.name m)
    else visits w declared r (skipJob p.name m).2

end Run

/-- The steps that are reached in a run. -/
def Workflow.visits (w : World) (workingDir : String) (scratch : Except FileFault String)
    (workflow : Workflow) (p : Plan) (c : Context) : List Visit :=
  match scratch with
  | .error _ => []
  | .ok directory => Run.visits w workflow.jobs p.jobs (.initial workingDir directory c)

/-- What is done around the steps of a run does at most this. -/
structure Machine.Around (m m' : Machine) : Prop where
  state : m'.state = { m.state with job := m'.state.job }
  context : m'.context = { m.context with jobs := m'.context.jobs }
  events : ∃ es, m'.events = m.events ++ es ∧ ∀ e ∈ es, e.scope = 3

namespace Machine.Around

variable {m m' : Machine}

theorem of_openJob (name : String) (j : Job) (m : Machine) :
    Around m (Run.openJob name j m).2 :=
  ⟨rfl, rfl, [.jobStarted name], rfl, by simp [Event.scope]⟩

theorem of_skipJob (name : String) (m : Machine) : Around m (Run.skipJob name m).2 :=
  ⟨rfl, rfl, [], by simp [Run.skipJob, Run.changeContext], by simp⟩

theorem of_closeJob (name : String) (j : Job) (outcome : Except Stop Unit) (m : Machine) :
    Around m (Run.closeJob name j outcome m).2 := by
  rcases outcome with (f | fault | message | fault | fault) | _
  · exact ⟨rfl, rfl, [.jobFailed name], rfl, by simp [Event.scope]⟩
  · exact ⟨rfl, rfl, [], by simp [Run.closeJob], by simp⟩
  · exact ⟨rfl, rfl, [], by simp [Run.closeJob], by simp⟩
  · exact ⟨rfl, rfl, [], by simp [Run.closeJob], by simp⟩
  · exact ⟨rfl, rfl, [], by simp [Run.closeJob], by simp⟩
  · exact ⟨rfl, rfl, [.jobSucceeded name (m.state.jobOutputs j)], rfl, by simp [Event.scope]⟩

end Machine.Around

namespace Run

variable {α β : Type} {w : World} {going final : List Visit → Machine → Prop}
  {earlier reached : List Visit} {m : Machine}

/-- What is handed from step to step as long as steps end well, and what a step that does not leaves;
both are about the steps reached so far and the machine. -/
structure HandsOn (w : World) (going final : List Visit → Machine → Prop) : Prop where
  around : ∀ {reached m m'}, Machine.Around m m' → going reached m → going reached m'
  passed : ∀ {reached v m}, going reached v.start → v.result w = (.ok (), m) →
    going (reached ++ [v]) m
  stopped : ∀ {reached v s m}, going reached v.start → v.result w = (.error s, m) →
    final (reached ++ [v]) m
  aroundFinal : ∀ {reached m m'}, Machine.Around m m' → final reached m → final reached m'
  final_of_going : ∀ {reached m}, going reached m → final reached m

/-- What is handed on holds at each of some visits, and after them. -/
structure Handed (going final : List Visit → Machine → Prop) (earlier reached : List Visit)
    (end_ : Except Stop α × Machine) : Prop where
  at_ : ∀ before v after, reached = before ++ v :: after → going (earlier ++ before) v.start
  passed : ∀ a m, end_ = (.ok a, m) → going (earlier ++ reached) m
  final : final (earlier ++ reached) end_.2

namespace Handed

theorem nil (hands : HandsOn w going final) (start : going earlier m) (o : Except Stop α) :
    Handed going final earlier [] (o, m) := by
  refine ⟨fun before v after split => ?_, fun a m' ended => ?_, ?_⟩
  · simp at split
  · cases ended
    simpa using start
  · simpa using hands.final_of_going start

theorem bind {x : Run α} {f : α → Run β} {rest : Machine → List Visit}
    (first : Handed going final earlier reached (x m))
    (second : ∀ a m', x m = (.ok a, m') → Handed going final (earlier ++ reached) (rest m') (f a m')) :
    Handed going final earlier (reached ++ onward rest (x m)) ((x >>= f) m) := by
  rw [bind_apply]
  rcases ran : x m with ⟨s | a, m'⟩
  · rw [ran] at first
    refine ⟨fun before v after split => ?_, fun _ _ ended => ?_, ?_⟩
    · exact first.at_ before v after (by simpa [onward] using split)
    · cases ended
    · simpa [onward] using first.final
  · have next := second a m' ran
    refine ⟨fun before v after split => ?_, fun b m₂ ended => ?_, ?_⟩
    · rcases append_eq_append_cons split with ⟨more, inner, -⟩ | ⟨more, rfl, later⟩
      · exact first.at_ before v more inner
      · rw [← List.append_assoc]
        exact next.at_ more v after later
    · rw [← List.append_assoc]
      exact next.passed b m₂ ended
    · rw [← List.append_assoc]
      exact next.final

theorem map {x : Run α} {f : α → β} (handed : Handed going final earlier reached (x m)) :
    Handed going final earlier reached ((x >>= fun a => (pure (f a) : Run β)) m) := by
  rw [bind_apply]
  rcases ran : x m with ⟨s | a, m'⟩
  · rw [ran] at handed
    refine ⟨handed.at_, fun _ _ ended => ?_, handed.final⟩
    cases ended
  · rw [ran] at handed
    refine ⟨handed.at_, fun _ m₂ ended => ?_, handed.final⟩
    cases ended
    exact handed.passed a m' rfl

end Handed

namespace HandsOn

variable {declared : Bindings Job} {name : String}

theorem result (hands : HandsOn w going final) {v : Visit} (start : going earlier v.start) :
    Handed going final earlier [v] (v.result w) := by
  refine ⟨fun before u after split => ?_, fun _ m' ended => hands.passed start ended, ?_⟩
  · rcases List.cons_eq_append_iff.mp split with ⟨rfl, same⟩ | ⟨more, -, impossible⟩
    · obtain ⟨rfl, -⟩ := List.cons.inj same
      simpa using start
    · simp at impossible
  · rcases ran : v.result w with ⟨s | _, m'⟩
    · exact hands.stopped start ran
    · exact hands.final_of_going (hands.passed start ran)

theorem steps (hands : HandsOn w going final) {total index : Nat} {steps : List Step}
    (start : going earlier m) :
    Handed going final earlier (visitsOfSteps w name total index steps m)
      (Run.steps w total index steps m) := by
  induction steps generalizing index earlier m with
  | nil => exact .nil hands start _
  | cons s r ih =>
    have first := hands.result (v := ⟨name, index, total, s, m⟩) start
    exact first.bind fun _ m' ran => ih (first.passed () m' ran)

theorem job (hands : HandsOn w going final) (start : going earlier m) :
    Handed going final earlier (visitsOfJob w declared name m) (Run.job w declared name m) := by
  unfold visitsOfJob
  cases found : declared.get? name with
  | none =>
    unfold Run.job
    rw [found]
    exact .nil hands start _
  | some j =>
    have opened := hands.around (.of_openJob name j m) start
    have inner : Handed going final earlier
        (visitsOfSteps w name j.steps.length 1 j.steps (openJob name j m).2)
        (Run.steps w j.steps.length 1 j.steps (openJob name j m).2) := hands.steps opened
    rw [job_of_found found]
    change Handed going final earlier _ (closeJob name j
      (Run.steps w j.steps.length 1 j.steps (openJob name j m).2).1
      (Run.steps w j.steps.length 1 j.steps (openJob name j m).2).2)
    generalize Run.steps w j.steps.length 1 j.steps (openJob name j m).2 = end_ at inner
    have closed := Machine.Around.of_closeJob name j end_.1 end_.2
    refine ⟨inner.at_, fun done m' ended => ?_, hands.aroundFinal closed inner.final⟩
    -- A job ends well only if its steps do.
    rcases end_ with ⟨s | a, m₁⟩
    · cases s <;> cases ended
    · rw [ended] at closed
      exact hands.around closed (inner.passed a m₁ rfl)

theorem jobs (hands : HandsOn w going final) {plans : List JobPlan} (start : going earlier m) :
    Handed going final earlier (Run.visits w declared plans m) (Run.jobs w declared plans m) := by
  induction plans generalizing earlier m with
  | nil => exact .nil hands start _
  | cons p r ih =>
    unfold Run.visits
    cases runs : p.wouldRun with
    | true =>
      rw [jobs_cons_of_run runs, if_pos rfl]
      have first : Handed going final earlier (visitsOfJob w declared p.name m)
          (Run.job w declared p.name m) := hands.job start
      exact first.bind fun _ m' ran => (ih (first.passed _ m' ran)).map
    | false =>
      rw [jobs_cons_of_skip runs, if_neg Bool.false_ne_true]
      exact ih (hands.around (.of_skipJob p.name m) start)

end HandsOn

end Run

end Drydock
