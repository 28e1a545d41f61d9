import Drydock.Proofs.Bindings
import Drydock.Proofs.Run.Files

set_option autoImplicit false
set_option relaxedAutoImplicit false

/-!
What steps hand on to each other. Main statements: the files are blank whenever a step is reached, what
is collected after a step is what its own containers left in them, and the variables and outputs of a
run are those that the steps so far have handed on, each once and in order.
-/

namespace Drydock

namespace Visit

variable (w : World)

/-- The calls that are made in a step. -/
def calls (v : Visit) : List Engine.Call :=
  (v.result w).2.calls.drop v.start.calls.length

/-- The bytes that the containers of a step leave in a file that is blank before. -/
def written (v : Visit) (slot : Slot) : List UInt8 :=
  Engine.left slot [] (w.engine.deeds v.start.calls (v.calls w))

/-- The assignments in what the containers of a step leave in the files. -/
def handed (v : Visit) : Channel.Collected :=
  Channel.assignments (v.written w)

/-- The variables that steps have handed on: those of each step that ended well, over those before. -/
def creditedEnv (vs : List Visit) : Bindings String :=
  .updates ((vs.filter (succeeds w)).map fun v => (v.handed w).env)

/-- The steps of an id that ended well; without an id there are none. -/
def doneAs (id : String) (vs : List Visit) : List Visit :=
  vs.filter fun v => v.succeeds w && (v.step.id == id && id != "")

/-- The outputs that the steps of an id have handed on, if one of them has ended well. -/
def creditedOutputs? (id : String) (vs : List Visit) : Option (Bindings String) :=
  if (doneAs w id vs).isEmpty then none
  else some (.updates ((doneAs w id vs).map fun v => (v.handed w).outputs))

/-- The variables and outputs that a run keeps are those that the steps so far have handed on, and the
variables that conditions read are those that the run began with, and these over them. -/
structure Accounted (c₀ : Context) (reached : List Visit) (s : RunState) (c : Context) : Prop where
  env : s.env = creditedEnv w reached
  context : c.env = c₀.env.update s.env
  outputs : ∀ id, s.outputs.get? id = creditedOutputs? w id reached

end Visit

namespace Machine

/-- Nothing is handed on. -/
structure Withholds (m m' : Machine) : Prop where
  env : m'.state.env = m.state.env
  outputs : m'.state.outputs = m.state.outputs
  context : m'.context.env = m.context.env

/-- The files are there and blank. -/
def IsBlank (m : Machine) : Prop :=
  ∃ c, m.state.channel = some c ∧ c.IsBlank

variable {m m' : Machine}

instance : IsPreorder Machine Withholds where
  refl _ := ⟨rfl, rfl, rfl⟩
  trans _ _ _ first second :=
    ⟨second.env.trans first.env, second.outputs.trans first.outputs,
      second.context.trans first.context⟩

theorem SameData.withholds (same : SameData m m') : Withholds m m' :=
  ⟨same.env, same.outputs, by rw [same.context]⟩

theorem Around.withholds (around : Around m m') : Withholds m m' :=
  ⟨by rw [around.state], by rw [around.state], by rw [around.context]⟩

theorem withholds_deplore (m : Machine) (s : Step) (f : Failure) : Withholds m (m.deplore s f) := by
  refine ⟨rfl, rfl, ?_⟩
  unfold deplore
  dsimp only
  split <;> rfl

theorem withholds_passOver (m : Machine) (s : Step) : Withholds m (m.passOver s) := by
  refine ⟨rfl, rfl, ?_⟩
  unfold passOver
  dsimp only
  split <;> rfl

end Machine

namespace Run

/-- What is collected is the assignments in what the files hold, and they are blank after it. -/
theorem collect_eq_ok {m m' : Machine} {c : Channel} {values : Channel.Collected}
    (opened : m.state.channel = some c) (collected : collect m = (.ok (.ok values), m')) :
    m'.IsBlank ∧ values = Channel.assignments fun slot => (c.get slot).content := by
  unfold collect at collected
  simp only [opened] at collected
  rcases taken : c.collect with ⟨c', fault | values'⟩
  · rw [taken] at collected
    cases collected
  · rw [taken] at collected
    cases collected
    obtain ⟨blank, same⟩ := Channel.collect_eq_ok taken
    exact ⟨⟨c', rfl, blank⟩, same⟩

end Run

namespace Visit

variable {w : World} {v : Visit} {c₀ : Context} {reached : List Visit}

theorem succeeds_of_skipped (refused : ¬ v.start.context.Admits v.step.condition) :
    v.succeeds w = false := by
  have passed : v.attempted = false := Bool.eq_false_iff.mpr (mt attempted_iff.mp refused)
  rw [succeeds, passed, Bool.false_and]

theorem succeeds_of_stopped {reason : Stop} {m : Machine} (ended : v.result w = (.error reason, m)) :
    v.succeeds w = false := by
  rw [succeeds, ended]
  exact Bool.and_false _

theorem succeeds_of_done {m : Machine} (admitted : v.start.context.Admits v.step.condition)
    (ended : v.result w = (.ok (), m)) : v.succeeds w = true := by
  rw [succeeds, attempted_iff.mpr admitted, ended]
  rfl

/-- What is collected after the work of a step is what its own containers left in the files, if these
were blank when the step was reached. -/
theorem collected_eq_handed {kind : StepKind} {values : Channel.Collected} {m m' : Machine}
    (blank : v.start.IsBlank)
    (worked : Run.work w v.step kind (v.arrival.begin_ v.step) = (.ok 0, m))
    (collected : Run.collect m = (.ok (.ok values), m'))
    (ended : (v.result w).2 =
      (m'.deliver v.step values).emit (.stepSucceeded v.step.displayName)) :
    values = v.handed w ∧ m'.IsBlank := by
  obtain ⟨c, opened, empty⟩ := blank
  have start : (v.arrival.begin_ v.step).calls = v.start.calls :=
    Machine.Rests.calls ⟨rfl, [v.mark], rfl, rfl⟩
  obtain ⟨c', opened', own, calls, contents⟩ := Run.writes_work w v.step kind _ 0 m worked c opened
  obtain ⟨blank', same⟩ := Run.collect_eq_ok opened' collected
  refine ⟨?_, blank'⟩
  -- No call is made after the work, so the calls of the step are those of its work.
  have rest : Machine.Rests m (v.result w).2 := by
    have taken := (Run.still_collect m).rests
    rw [collected] at taken
    have noted : Machine.Rests (m'.deliver v.step values) (v.result w).2 := by
      rw [ended]
      exact ⟨rfl, [.stepSucceeded v.step.displayName], rfl, rfl⟩
    exact trans_of _ taken (trans_of _ (Run.rests_deliver w v.step values m') noted)
  have own_eq : v.calls w = own := by
    rw [Visit.calls, rest.calls, calls, start, List.drop_left]
  rw [same, handed]
  congr 1
  funext slot
  rw [contents slot, (empty slot).content, start, written, own_eq]

theorem creditedEnv_concat (reached : List Visit) (v : Visit) :
    creditedEnv w (reached ++ [v]) =
      if v.succeeds w then (creditedEnv w reached).update (v.handed w).env
      else creditedEnv w reached := by
  unfold creditedEnv
  cases ends : v.succeeds w with
  | true => simp [ends, Bindings.updates_concat]
  | false => simp [ends]

theorem creditedOutputs?_concat (id : String) (reached : List Visit) (v : Visit) :
    creditedOutputs? w id (reached ++ [v]) =
      if v.succeeds w && (v.step.id == id && id != "") then
        some (((creditedOutputs? w id reached).getD ∅).update (v.handed w).outputs)
      else creditedOutputs? w id reached := by
  have before : (creditedOutputs? w id reached).getD ∅ =
      .updates ((doneAs w id reached).map fun v => (v.handed w).outputs) := by
    unfold creditedOutputs?
    split
    · rename_i none
      rw [List.isEmpty_iff.mp none]
      rfl
    · rfl
  rw [before]
  unfold creditedOutputs? doneAs
  cases own : v.succeeds w && (v.step.id == id && id != "") with
  | true => simp [own, Bindings.updates_concat]
  | false => simp [own]

namespace Accounted

variable {m m' : Machine}

theorem withheld (accounted : Accounted w c₀ reached m.state m.context)
    (fails : v.succeeds w = false) (withholds : Machine.Withholds m m') :
    Accounted w c₀ (reached ++ [v]) m'.state m'.context := by
  refine ⟨?_, ?_, fun id => ?_⟩
  · rw [withholds.env, accounted.env, creditedEnv_concat, fails]
    rfl
  · rw [withholds.context, withholds.env, accounted.context]
  · rw [withholds.outputs, accounted.outputs, creditedOutputs?_concat, fails]
    rfl

theorem delivered (accounted : Accounted w c₀ reached m.state m.context)
    (ends : v.succeeds w = true) :
    Accounted w c₀ (reached ++ [v]) (m.deliver v.step (v.handed w)).state
      (m.deliver v.step (v.handed w)).context := by
  refine ⟨?_, ?_, fun id => ?_⟩
  · rw [creditedEnv_concat, ends, if_pos rfl, ← accounted.env]
    rfl
  · change m.context.env.update (v.handed w).env = c₀.env.update (m.state.env.update (v.handed w).env)
    rw [accounted.context, Bindings.update_update]
  · change (m.handedOutputs v.step (v.handed w)).get? id = _
    rw [Machine.get?_handedOutputs, creditedOutputs?_concat, ends, Bool.true_and, accounted.outputs]

theorem around (accounted : Accounted w c₀ reached m.state m.context)
    (withholds : Machine.Withholds m m') : Accounted w c₀ reached m'.state m'.context := by
  refine ⟨?_, ?_, fun id => ?_⟩
  · rw [withholds.env, accounted.env]
  · rw [withholds.context, withholds.env, accounted.context]
  · rw [withholds.outputs, accounted.outputs]

end Accounted

/-- What holds when a step is reached holds again after it has ended well. -/
theorem accounted_of_ok {m : Machine} (blank : v.start.IsBlank)
    (accounted : Accounted w c₀ reached v.start.state v.start.context)
    (ended : v.result w = (.ok (), m)) :
    Accounted w c₀ (reached ++ [v]) m.state m.context ∧ m.IsBlank := by
  have arrived := v.sameData_arrival.withholds
  have comes := v.comes w
  rw [ended] at comes
  cases comes with
  | skipped refused =>
    have withholds := trans_of _ arrived (v.arrival.withholds_passOver v.step)
    exact ⟨accounted.withheld (succeeds_of_skipped refused) withholds, blank⟩
  | done admitted kind values m₁ m₂ works worked collected =>
    obtain ⟨rfl, blank'⟩ := collected_eq_handed blank worked collected (congrArg Prod.snd ended)
    have before := accounted.around (sameData_collected worked collected).withholds
    exact ⟨before.delivered (succeeds_of_done admitted ended), blank'⟩

theorem accounted_of_error {reason : Stop} {m : Machine}
    (accounted : Accounted w c₀ reached v.start.state v.start.context)
    (ended : v.result w = (.error reason, m)) :
    Accounted w c₀ (reached ++ [v]) m.state m.context := by
  have arrived := v.sameData_arrival.withholds
  have comes := v.comes w
  rw [ended] at comes
  cases comes with
  | unjudged fault judged => exact accounted.withheld (succeeds_of_stopped ended) arrived
  | failed admitted _ _ failed =>
    obtain ⟨m₁, same, rfl | ⟨f, rfl⟩⟩ := sameData_failed failed
    · exact accounted.withheld (succeeds_of_stopped ended) same.withholds
    · have withholds := trans_of _ same.withholds (m₁.withholds_deplore v.step f)
      exact accounted.withheld (succeeds_of_stopped ended) withholds

theorem collected_of_succeeds (blank : v.start.IsBlank) (ends : v.succeeds w = true) :
    ∃ kind m, v.step.work? = some kind ∧
      Run.work w v.step kind (v.arrival.begin_ v.step) = (.ok 0, m) ∧
      (Run.collect m).1 = .ok (.ok (v.handed w)) := by
  obtain ⟨attempted, well⟩ := Bool.and_eq_true_iff.mp ends
  have comes := v.comes w
  rcases ended : v.result w with ⟨reason | _, m⟩
  · simp [ended, Except.isOk, Except.toBool] at well
  · rw [ended] at comes
    cases comes with
    | skipped refused => exact absurd (attempted_iff.mp attempted) refused
    | done admitted kind values m₁ m₂ works worked collected =>
      have same := (collected_eq_handed blank worked collected (congrArg Prod.snd ended)).1
      exact ⟨kind, m₁, works, worked, by rw [collected, same]⟩

end Visit

namespace Run

open Visit (Accounted)

theorem handsOn_accounted (w : World) (c₀ : Context) :
    HandsOn w (fun reached m => Accounted w c₀ reached m.state m.context ∧ m.IsBlank)
      (fun reached m => Accounted w c₀ reached m.state m.context) where
  around around going := by
    refine ⟨going.1.around around.withholds, ?_⟩
    obtain ⟨c, opened, blank⟩ := going.2
    exact ⟨c, by rw [around.state]; exact opened, blank⟩
  passed going ended := Visit.accounted_of_ok going.2 going.1 ended
  stopped going ended := Visit.accounted_of_error going.1 ended
  aroundFinal around accounted := accounted.around around.withholds
  final_of_going going := going.1

theorem jobs_accounted (w : World) (declared : Bindings Job) (plans : List JobPlan) {c₀ : Context}
    {m : Machine} (accounted : Accounted w c₀ [] m.state m.context) (blank : m.IsBlank) :
    Handed (fun reached m => Accounted w c₀ reached m.state m.context ∧ m.IsBlank)
      (fun reached m => Accounted w c₀ reached m.state m.context) []
      (visits w declared plans m) (jobs w declared plans m) :=
  (handsOn_accounted w c₀).jobs ⟨accounted, blank⟩

end Run

/-- Whatever containers do to the files, both are blank whenever a step is reached, and what is collected
after a step that ends well is the assignments in what its own containers left in them. So the variables
and outputs that a run keeps when a step is reached, and in the end, are those that the steps so far
have handed on, each once and in order; and conditions read the same variables over those that the run
began with. -/
theorem Workflow.execute_credits_steps (w : World) (workingDir : String)
    (scratch : Except FileFault String) (workflow : Workflow) (p : Plan) (c : Context) :
    (∀ before v after, workflow.visits w workingDir scratch p c = before ++ v :: after →
      v.start.IsBlank ∧ Visit.Accounted w c before v.start.state v.start.context ∧
      (v.succeeds w = true → ∃ kind m, v.step.work? = some kind ∧
        Run.work w v.step kind (v.arrival.begin_ v.step) = (.ok 0, m) ∧
        (Run.collect m).1 = .ok (.ok (v.handed w)))) ∧
    ∀ s, (workflow.execute w workingDir scratch p c).state = some s →
      Visit.Accounted w c (workflow.visits w workingDir scratch p c) s
        (workflow.execute w workingDir scratch p c).context := by
  cases scratch with
  | error fault =>
    refine ⟨fun before v after split => ?_, fun s ended => ?_⟩
    · simp [Workflow.visits] at split
    · simp [Workflow.execute] at ended
  | ok directory =>
    have start : Visit.Accounted w c [] (Machine.initial workingDir directory c).state c :=
      ⟨rfl, rfl, fun _ => rfl⟩
    have handed := Run.jobs_accounted w workflow.jobs p.jobs start
      ⟨_, rfl, Channel.isBlank_opened directory⟩
    refine ⟨fun before v after split => ?_, fun s ended => ?_⟩
    · obtain ⟨accounted, blank⟩ := handed.at_ before v after split
      exact ⟨blank, accounted, Visit.collected_of_succeeds blank⟩
    · rw [execute_of_directory] at ended ⊢
      cases ended
      obtain ⟨env, context, outputs⟩ := handed.final
      exact ⟨env, context, outputs⟩

end Drydock
