import Drydock.Proofs.Plan.Job
import Drydock.Proofs.Run.Visit

set_option autoImplicit false
set_option relaxedAutoImplicit false

/-!
What becomes of a step that is reached. Main statement: its condition cannot be judged, or it is passed
over, or it is done and hands on what was collected after its work, or it stops the run without handing
on anything.
-/

namespace Drydock

/-- A reason to stop that is told as no failure of the step that it stops. -/
def Stop.Escapes : Stop → Prop
  | .failure _ | .file _ => False
  | .interrupted _ | .unjudged _ | .unread _ => True

/-- The failure of a step that has no work. -/
def Step.idleFailure (s : Step) : Failure :=
  ⟨.execution, s!"no executor found for step: {s.displayName}", none, some s.displayName⟩

namespace Machine

/-- A step has begun. -/
def begin_ (m : Machine) (s : Step) : Machine :=
  { m with state := { m.state with step := some ⟨s, "", ∅⟩ } }

/-- The outputs of a step on top of those that it had before; a step without name has none. -/
def handedOutputs (m : Machine) (s : Step) (values : Channel.Collected) :
    Bindings (Bindings String) :=
  if s.id ≠ "" then (m.state.mergeOutputs s.id values.outputs).outputs else m.state.outputs

/-- A step has handed on what was collected after its work. -/
def deliver (m : Machine) (s : Step) (values : Channel.Collected) : Machine where
  state := { m.state with
    env := m.state.env.update values.env
    outputs := m.handedOutputs s values
    step := m.state.step.map fun r => { r with outcome := statusSuccess, outputs := values.outputs } }
  context := { m.context with
    env := m.context.env.update values.env
    steps := if s.id ≠ "" then
        m.context.steps.insert s.id ⟨statusSuccess, ((m.handedOutputs s values).get? s.id).getD ∅⟩
      else m.context.steps }
  events := m.events ++ (values.env.entries.map fun e => .envSet e.1 e.2) ++
    if s.id ≠ "" then values.outputs.entries.map fun e => .outputSet s.id e.1 e.2 else []

/-- A step is recorded as failed. -/
def deplore (m : Machine) (s : Step) (f : Failure) : Machine where
  state := { m.state with step := m.state.step.map fun r => { r with outcome := outcomeFailure } }
  context := if s.id ≠ "" then m.context.recordStep s.id outcomeFailure ∅ else m.context
  events := m.events ++ [.stepFailed s.displayName f]

/-- A step is passed over. -/
def passOver (m : Machine) (s : Step) : Machine :=
  { m with
    context := if s.id ≠ "" then m.context.recordStep s.id statusSkipped ∅ else m.context
    events := m.events ++ [.stepSkipped] }

/-- All that conditions read and texts are filled in from is the same. -/
structure SameData (m m' : Machine) : Prop where
  context : m'.context = m.context
  env : m'.state.env = m.state.env
  outputs : m'.state.outputs = m.state.outputs

instance : IsPreorder Machine SameData where
  refl _ := ⟨rfl, rfl, rfl⟩
  trans _ _ _ first second := ⟨second.context.trans first.context, second.env.trans first.env,
    second.outputs.trans first.outputs⟩

theorem Works.sameData {m m' : Machine} (works : Works m m') : SameData m m' :=
  ⟨works.context, by rw [works.state], by rw [works.state]⟩

theorem sameData_begin (m : Machine) (s : Step) : SameData m (m.begin_ s) :=
  ⟨rfl, rfl, rfl⟩

theorem sameData_collect (m : Machine) : SameData m (Run.collect m).2 := by
  unfold Run.collect
  split <;> exact ⟨rfl, rfl, rfl⟩

theorem get?_handedOutputs (m : Machine) (s : Step) (values : Channel.Collected) (id : String) :
    (m.handedOutputs s values).get? id =
      if s.id == id && id != "" then
        some (((m.state.outputs.get? id).getD ∅).update values.outputs)
      else m.state.outputs.get? id := by
  unfold handedOutputs RunState.mergeOutputs
  by_cases named : s.id ≠ ""
  · by_cases same : id = s.id
    · subst same
      simp [named, Bindings.get?_insert]
    · simp [named, Bindings.get?_insert, same, Ne.symm same]
  · by_cases same : s.id = id
    · subst same
      simp [named]
    · simp [named, same]

end Machine

namespace Run

variable {w : World} {s : Step} {m m' : Machine}

theorem skip_apply (s : Step) (m : Machine) : skip s m = (.ok (), m.passOver s) := by
  unfold skip Machine.passOver
  split <;> rfl

theorem failStep_apply {α : Type} (s : Step) (f : Failure) (m : Machine) :
    (failStep s f : Run α) m = (.error (.failure (f.inStep s.displayName)), m.deplore s f) := by
  unfold failStep recordFailure Machine.deplore
  split <;> rfl

theorem admitted_of_ok {verdict : Option Condition}
    (judged : judge? m.context s.condition = .ok verdict) :
    admitted s m = (.ok (verdict.all Condition.value), m) := by
  simp only [admitted, judged]

theorem admitted_of_error {fault : PlanFault} (judged : judge? m.context s.condition = .error fault) :
    admitted s m = (.error (.unjudged fault), m) := by
  simp only [admitted, judged]

theorem deliver_apply (s : Step) (values : Channel.Collected) (m : Machine) :
    (merge s values >>= fun _ => recordSuccess s values) m = (.ok (), m.deliver s values) := by
  unfold merge recordSuccess Machine.deliver Machine.handedOutputs
  by_cases unnamed : s.id = ""
  · simp only [unnamed, ne_eq, not_true_eq_false, if_false, List.append_nil]
    rfl
  · simp only [unnamed, ne_eq, not_false_eq_true, if_true]
    rfl

/-- A step that ends well has done its work with exit code zero, and hands on what is collected then. -/
theorem finish_eq_ok {outcome : Except Stop Int} (ended : finish s outcome m = (.ok (), m')) :
    outcome = .ok 0 ∧ ∃ values m₁, collect m = (.ok (.ok values), m₁) ∧ m' = m₁.deliver s values := by
  unfold finish at ended
  split at ended
  · cases (failStep_apply s _ m).symm.trans ended
  · cases (failStep_apply s _ m).symm.trans ended
  · cases ended
  · rename_i code
    split at ended
    · cases (failStep_apply s _ m).symm.trans ended
    · rename_i zero
      obtain ⟨collected, m₁, taken, ended⟩ := bind_eq_ok.mp ended
      cases collected with
      | error fault => cases (failStep_apply s _ m₁).symm.trans ended
      | ok values =>
        have same := (deliver_apply s values m₁).symm.trans ended
        exact ⟨by simpa using zero, values, m₁, taken, (Prod.mk.inj same).2.symm⟩

theorem collect_apply (m : Machine) : ∃ taken, collect m = (.ok taken, (collect m).2) := by
  unfold collect
  split <;> exact ⟨_, rfl⟩

/-- How a step stops a run after its work: it is recorded as failed, at most after its files are
collected, or what stopped its work is told as no failure. -/
theorem stops_of_finish {outcome : Except Stop Int} {reason : Stop}
    (ended : finish s outcome m = (.error reason, m')) :
    (∃ f m₁, (m₁ = m ∨ m₁ = (collect m).2) ∧ m' = m₁.deplore s f ∧
      reason = .failure (f.inStep s.displayName)) ∨
    (outcome = .error reason ∧ reason.Escapes ∧ m' = m) := by
  unfold finish at ended
  split at ended
  · cases (failStep_apply s _ m).symm.trans ended
    exact .inl ⟨_, m, .inl rfl, rfl, rfl⟩
  · cases (failStep_apply s _ m).symm.trans ended
    exact .inl ⟨_, m, .inl rfl, rfl, rfl⟩
  · rename_i noFailure noFault
    cases ended
    refine .inr ⟨rfl, ?_, rfl⟩
    cases reason with
    | failure f => exact noFailure f rfl
    | file fault => exact noFault fault rfl
    | interrupted _ => trivial
    | unjudged _ => trivial
    | unread _ => trivial
  · split at ended
    · cases (failStep_apply s _ m).symm.trans ended
      exact .inl ⟨_, m, .inl rfl, rfl, rfl⟩
    · obtain ⟨taken, same⟩ := collect_apply m
      rw [bind_apply, same] at ended
      cases taken with
      | error fault =>
        cases (failStep_apply s _ (collect m).2).symm.trans ended
        exact .inl ⟨_, _, .inr rfl, rfl, rfl⟩
      | ok values => cases (deliver_apply s values (collect m).2).symm.trans ended

/-- A step that does not end well hands on nothing: at most its files are collected, and it is recorded
as failed. -/
theorem finish_eq_error {outcome : Except Stop Int} {reason : Stop}
    (ended : finish s outcome m = (.error reason, m')) :
    ∃ m₁, (m₁ = m ∨ m₁ = (collect m).2) ∧ (m' = m₁ ∨ ∃ f, m' = m₁.deplore s f) := by
  rcases stops_of_finish ended with ⟨f, m₁, before, after, -⟩ | ⟨-, -, rfl⟩
  · exact ⟨m₁, before, .inr ⟨f, after⟩⟩
  · exact ⟨m', .inl rfl, .inl rfl⟩

theorem step_of_work {kind : StepKind} (works : s.work? = some kind) (w : World) (m : Machine) :
    step w s m = finish s (work w s kind (m.begin_ s)).1 (work w s kind (m.begin_ s)).2 := by
  unfold step
  rw [works]
  rfl

theorem step_of_no_work (idle : s.work? = none) (w : World) (m : Machine) :
    step w s m = (.error (.failure s.idleFailure), m.begin_ s) := by
  unfold step
  rw [idle]
  rfl

/-- What holds after the work of a step, and is not lost when its files are collected, holds when a step
does not end well; at most it is recorded as failed then. -/
theorem of_step_eq_error {P : Machine → Prop} {reason : Stop} (begun : P (m.begin_ s))
    (worked : ∀ kind, P (work w s kind (m.begin_ s)).2) (collected : ∀ m, P m → P (collect m).2)
    (ended : step w s m = (.error reason, m')) :
    ∃ m₁, P m₁ ∧ (m' = m₁ ∨ ∃ f, m' = m₁.deplore s f) := by
  cases works : s.work? with
  | none =>
    cases (step_of_no_work works w m).symm.trans ended
    exact ⟨_, begun, .inl rfl⟩
  | some kind =>
    rw [step_of_work works] at ended
    obtain ⟨m₁, before, after⟩ := finish_eq_error ended
    refine ⟨m₁, ?_, after⟩
    rcases before with rfl | rfl
    · exact worked kind
    · exact collected _ (worked kind)

/-- Until its outcome is known, a step changes nothing that is read or filled in. -/
theorem sameData_of_step_eq_error {reason : Stop} (ended : step w s m = (.error reason, m')) :
    ∃ m₁, Machine.SameData m m₁ ∧ (m' = m₁ ∨ ∃ f, m' = m₁.deplore s f) :=
  of_step_eq_error (Machine.sameData_begin m s)
    (fun kind => trans_of _ (Machine.sameData_begin m s) (keeps_work w s kind (m.begin_ s)).sameData)
    (fun m₁ same => trans_of _ same (Machine.sameData_collect m₁)) ended

theorem step_eq_ok (ended : step w s m = (.ok (), m')) :
    ∃ kind m₁ values m₂, s.work? = some kind ∧ work w s kind (m.begin_ s) = (.ok 0, m₁) ∧
      collect m₁ = (.ok (.ok values), m₂) ∧ m' = m₂.deliver s values := by
  cases works : s.work? with
  | none =>
    cases (step_of_no_work works w m).symm.trans ended
  | some kind =>
    rw [step_of_work works] at ended
    obtain ⟨zero, values, m₂, taken, same⟩ := finish_eq_ok ended
    exact ⟨kind, _, values, m₂, rfl, Prod.ext zero rfl, taken, same⟩

end Run

/-- What becomes of a step that is reached, in a world. -/
inductive Visit.Comes (w : World) (v : Visit) : Except Stop Unit → Machine → Prop
  | unjudged (fault : PlanFault)
      (judged : judge? v.start.context v.step.condition = .error fault) :
      Comes w v (.error (.unjudged fault)) v.arrival
  | skipped (refused : ¬ v.start.context.Admits v.step.condition) :
      Comes w v (.ok ()) (v.arrival.passOver v.step)
  | done (admitted : v.start.context.Admits v.step.condition) (kind : StepKind)
      (values : Channel.Collected) (m m' : Machine) (works : v.step.work? = some kind)
      (worked : Run.work w v.step kind (v.arrival.begin_ v.step) = (.ok 0, m))
      (collected : Run.collect m = (.ok (.ok values), m')) :
      Comes w v (.ok ()) ((m'.deliver v.step values).emit (.stepSucceeded v.step.displayName))
  | failed (admitted : v.start.context.Admits v.step.condition) (reason : Stop) (m : Machine)
      (ended : Run.step w v.step v.arrival = (.error reason, m)) :
      Comes w v (.error reason) m

theorem Visit.comes (w : World) (v : Visit) : v.Comes w (v.result w).1 (v.result w).2 := by
  change v.Comes w ((Run.admitted v.step >>= Run.turn w v.step) v.arrival).1
    ((Run.admitted v.step >>= Run.turn w v.step) v.arrival).2
  rw [Run.bind_apply]
  cases judged : judge? v.start.context v.step.condition with
  | error fault =>
    rw [Run.admitted_of_error (m := v.arrival) judged]
    exact .unjudged fault judged
  | ok verdict =>
    have admits := all_of_judge? judged
    rw [Run.admitted_of_ok (m := v.arrival) judged]
    cases holds : verdict.all Condition.value with
    | false =>
      change v.Comes w (Run.skip v.step v.arrival).1 (Run.skip v.step v.arrival).2
      rw [Run.skip_apply]
      exact .skipped fun admitted => Bool.false_ne_true (holds.symm.trans (admits.mpr admitted))
    | true =>
      have admitted := admits.mp holds
      change v.Comes w
        ((Run.step w v.step >>= fun _ => Run.emit (.stepSucceeded v.step.displayName)) v.arrival).1
        ((Run.step w v.step >>= fun _ => Run.emit (.stepSucceeded v.step.displayName)) v.arrival).2
      rw [Run.bind_apply]
      rcases ended : Run.step w v.step v.arrival with ⟨reason | _, m⟩
      · exact .failed admitted reason m ended
      · obtain ⟨kind, m₁, values, m₂, works, worked, collected, rfl⟩ := Run.step_eq_ok ended
        exact .done admitted kind values m₁ m₂ works worked collected

namespace Visit

variable {w : World} {v : Visit}

theorem sameData_arrival (v : Visit) : Machine.SameData v.start v.arrival :=
  ⟨rfl, rfl, rfl⟩

theorem sameData_collected {kind : StepKind} {m m' : Machine} {code : Int}
    {values : Except FileFault Channel.Collected}
    (worked : Run.work w v.step kind (v.arrival.begin_ v.step) = (.ok code, m))
    (collected : Run.collect m = (.ok values, m')) : Machine.SameData v.start m' := by
  have working := (Run.keeps_work w v.step kind (v.arrival.begin_ v.step)).sameData
  have taken := Machine.sameData_collect m
  rw [worked] at working
  rw [collected] at taken
  calc Machine.SameData v.start v.arrival := v.sameData_arrival
    Machine.SameData _ (v.arrival.begin_ v.step) := Machine.sameData_begin _ _
    Machine.SameData _ m := working
    Machine.SameData _ m' := taken

theorem sameData_failed {reason : Stop} {m : Machine}
    (ended : Run.step w v.step v.arrival = (.error reason, m)) :
    ∃ m₁, Machine.SameData v.start m₁ ∧ (m = m₁ ∨ ∃ f, m = m₁.deplore v.step f) := by
  obtain ⟨m₁, same, after⟩ := Run.sameData_of_step_eq_error ended
  exact ⟨m₁, trans_of _ v.sameData_arrival same, after⟩

/-- The condition of a step holds when the step is reached. -/
def attempted (v : Visit) : Bool :=
  match (Run.admitted v.step v.arrival).1 with
  | .ok verdict => verdict
  | .error _ => false

/-- A step is done and ends well. -/
def succeeds (w : World) (v : Visit) : Bool :=
  v.attempted && (v.result w).1.isOk

theorem attempted_iff : v.attempted = true ↔ v.start.context.Admits v.step.condition := by
  unfold attempted
  cases judged : judge? v.start.context v.step.condition with
  | error fault =>
    rw [Run.admitted_of_error (m := v.arrival) judged]
    exact ⟨nofun, fun admitted => absurd admitted (not_admits_of_judge? judged)⟩
  | ok verdict =>
    rw [Run.admitted_of_ok (m := v.arrival) judged]
    exact all_of_judge? judged

theorem admitted_of_attempted (attempted : v.attempted = true) :
    Run.admitted v.step v.arrival = (.ok true, v.arrival) := by
  have stays := Run.admitted_stays v.step v.arrival
  unfold Visit.attempted at attempted
  rcases judged : Run.admitted v.step v.arrival with ⟨reason | verdict, m⟩
  · rw [judged] at attempted
    cases attempted
  · rw [judged] at attempted stays
    exact Prod.ext (congrArg Except.ok attempted) stays

/-- A step that is attempted is done. -/
theorem result_of_attempted (w : World) (attempted : v.attempted = true) :
    v.result w = Run.turn w v.step true v.arrival :=
  Run.reach_of_admitted w v.step v.index v.total (admitted_of_attempted attempted)

/-- For a step that is not attempted, at most its record is written. -/
theorem events_of_not_attempted (w : World) (passed : v.attempted = false) :
    ∃ own, (v.result w).2.events = v.start.events ++ v.mark :: own ∧ own ⊆ [.stepSkipped] := by
  have refused : ¬ v.start.context.Admits v.step.condition :=
    mt attempted_iff.mpr (Bool.eq_false_iff.mp passed)
  have comes := v.comes w
  rcases ended : v.result w with ⟨reason | _, m⟩
  · rw [ended] at comes
    cases comes with
    | unjudged fault judged => exact ⟨[], rfl, List.nil_subset _⟩
    | failed admitted _ _ _ => exact absurd admitted refused
  · rw [ended] at comes
    cases comes with
    | skipped _ => exact ⟨[.stepSkipped], List.append_assoc _ _ _, List.Subset.refl _⟩
    | done admitted _ _ _ _ _ _ _ => exact absurd admitted refused

theorem calls_of_not_attempted (w : World) (passed : v.attempted = false) :
    (v.result w).2.calls = v.start.calls := by
  obtain ⟨own, events, few⟩ := events_of_not_attempted w passed
  have none : Event.calls (v.mark :: own) = [] := by
    refine Event.calls_eq_nil fun e found => ?_
    rcases List.mem_cons.mp found with rfl | skipped
    · exact Nat.succ_ne_zero 1
    · rw [List.mem_singleton.mp (few skipped)]
      exact Nat.succ_ne_zero 1
  rw [Machine.calls, events, Event.calls_append, none, List.append_nil]
  rfl

/-- What a step notes after it is announced belongs to it. -/
theorem events_result (w : World) (v : Visit) :
    ∃ own, (v.result w).2.events = v.start.events ++ v.mark :: own ∧
      ∀ e ∈ own, e = .stepSkipped ∨ e.scope ≤ 1 := by
  cases attempted : v.attempted with
  | true =>
    obtain ⟨own, events, -, small⟩ := Run.events_turn w v.step true v.arrival
    rw [result_of_attempted w attempted]
    exact ⟨own, events.trans (List.append_assoc _ _ _), small⟩
  | false =>
    obtain ⟨own, events, few⟩ := events_of_not_attempted w attempted
    exact ⟨own, events, fun e found => .inl (List.mem_singleton.mp (few found))⟩

end Visit

end Drydock
