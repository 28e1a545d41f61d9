import Drydock.Proofs.Run.Turn

set_option autoImplicit false
set_option relaxedAutoImplicit false

/-!
Where the events of a run come from. Main statements: an event of a run is noted by one of its jobs,
after the jobs before it were done, and an event of a job by one of its steps, after the steps before
it were passed.
-/

namespace Drydock

open Machine (Logs Turns)

namespace Run

variable {α β : Type} {n : Nat} {x : Run α} {f : α → Run β} {m : Machine} {before : List Event}
  {e : Event}

/-- A part of a run notes an event right after the events `before`. -/
def Emits (x : Run α) (m : Machine) (before : List Event) (e : Event) : Prop :=
  m.events <+: before ∧ before ++ [e] <+: (x m).2.events

namespace Emits

theorem bind_inv (grows : ∀ a, Keeps (Logs n) (f a)) (emits : Emits (x >>= f) m before e) :
    Emits x m before e ∨ ∃ a m₁, x m = (.ok a, m₁) ∧ Emits (f a) m₁ before e := by
  obtain ⟨start, found⟩ := emits
  rw [bind_apply] at found
  rcases h : x m with ⟨s | a, m₁⟩
  · rw [h] at found
    exact .inl ⟨start, by rw [h]; exact found⟩
  · rw [h] at found
    obtain ⟨es, events, -⟩ := grows a m₁
    have grown : m₁.events <+: (f a m₁).2.events := ⟨es, events.symm⟩
    -- The first part ends somewhere in the events: after the new event, or before it.
    rcases List.prefix_or_prefix_of_prefix found grown with early | late
    · exact .inl ⟨start, by rw [h]; exact early⟩
    · rcases List.prefix_concat_iff.mp late with same | late
      · have early : before ++ [e] <+: m₁.events := ⟨[], (List.append_nil _).trans same.symm⟩
        exact .inl ⟨start, by rw [h]; exact early⟩
      · exact .inr ⟨a, m₁, rfl, late, found⟩

theorem scope_le (logs : Keeps (Logs n) x) (emits : Emits x m before e) : e.scope ≤ n := by
  obtain ⟨⟨es, rfl⟩, found⟩ := emits
  obtain ⟨new, events, small⟩ := logs m
  rw [events, List.append_assoc, List.prefix_append_right_inj] at found
  exact small e (found.subset (List.mem_append_right _ List.mem_cons_self))

theorem not_of_stays (stays : (x m).2.events = m.events) : ¬ Emits x m before e := by
  rintro ⟨start, found⟩
  rw [stays] at found
  have longer := Nat.le_trans found.length_le start.length_le
  rw [List.length_append, List.length_singleton] at longer
  omega

theorem of_single {d : Event} (single : (x m).2.events = m.events ++ [d])
    (emits : Emits x m before e) : before = m.events ∧ e = d := by
  obtain ⟨⟨es, rfl⟩, rest, found⟩ := emits
  rw [single, List.append_assoc, List.append_assoc, List.append_cancel_left_eq] at found
  rcases List.append_eq_singleton_iff.mp found with ⟨rfl, same⟩ | ⟨-, none⟩
  · exact ⟨List.append_nil _, (List.cons.inj same).1⟩
  · simp at none

end Emits

theorem events_bind (grows : ∀ a, Keeps (Logs n) (f a)) (m : Machine) :
    (x m).2.events <+: ((x >>= f) m).2.events := by
  obtain ⟨es, events, -⟩ := Keeps.after_first (x := x) grows m
  exact ⟨es, events.symm⟩

section Logged

variable (w : World) (declared : Bindings Job) (name : String) (j : Job)

theorem Keeps.logs (turns : Keeps (Turns n) x) : Keeps (Logs n) x :=
  fun m => (turns m).logs

theorem Keeps.logs_single {d : Machine → Event} (single : ∀ m, (x m).2.events = m.events ++ [d m])
    (small : ∀ m, (d m).scope ≤ n) : Keeps (Logs n) x :=
  fun m => ⟨[d m], single m, by simpa using small m⟩

theorem events_skip (s : Step) (m : Machine) :
    (skip s m).2.events = m.events ++ [.stepSkipped] := by
  unfold skip
  split <;> rfl

/-- The turn of a step notes that it is passed over, or what belongs to the step. -/
theorem events_turn (s : Step) (verdict : Bool) (m : Machine) :
    ∃ own, (turn w s verdict m).2.events = m.events ++ own ∧
      (.stepSkipped ∈ own ↔ verdict = false) ∧ ∀ e ∈ own, e = .stepSkipped ∨ e.scope ≤ 1 := by
  cases verdict with
  | false => exact ⟨[.stepSkipped], events_skip s m, by simp, by simp⟩
  | true =>
    have succeeded : Keeps (Logs 1) (emit (.stepSucceeded s.displayName)) :=
      .logs_single (fun _ => rfl) fun _ => Nat.le_refl 1
    obtain ⟨own, events, small⟩ := ((keeps_step w s).logs.bind fun _ => succeeded) m
    refine ⟨own, events, ?_, fun e found => .inr (small e found)⟩
    simp only [Bool.true_eq_false, iff_false]
    intro skipped
    exact absurd (small _ skipped) (by decide)

theorem events_openJob (m : Machine) :
    (openJob name j m).2.events = m.events ++ [.jobStarted name] := rfl

theorem events_failJob (f : Failure) (m : Machine) :
    (failJob name f m : Except Stop α × Machine).2.events = m.events ++ [.jobFailed name] := rfl

theorem events_succeedJob (m : Machine) :
    (succeedJob name j m).2.events =
      m.events ++ [.jobSucceeded name (m.state.jobOutputs j)] := rfl

theorem logs_steps (total index : Nat) (steps : List Step) :
    Keeps (Logs 2) (Run.steps w total index steps) :=
  (keeps_steps w total index steps).logs

theorem logs_closeJob (outcome : Except Stop Unit) : Keeps (Logs 3) (closeJob name j outcome) := by
  unfold closeJob
  split
  · exact .logs_single (events_succeedJob name j) fun _ => Nat.le_refl 3
  · exact .logs_single (events_failJob name _) fun _ => Nat.le_refl 3
  · exact .stop _

theorem logs_job : Keeps (Logs 3) (job w declared name) := by
  unfold job
  split
  · exact .fail _
  · refine (Keeps.logs_single (events_openJob name _) fun _ => Nat.le_refl 3).bind fun _ => ?_
    refine Keeps.bind (Keeps.attempt fun m => ?_) fun outcome => logs_closeJob name _ outcome
    exact (logs_steps w _ 1 _ m).mono (Nat.le_succ 2)

theorem logs_jobs (plans : List JobPlan) : Keeps (Logs 3) (jobs w declared plans) := by
  induction plans with
  | nil => exact .pure _
  | cons p r ih =>
    unfold jobs
    split
    · exact (logs_job w declared p.name).bind fun _ => ih.bind fun _ => .pure _
    · exact (Keeps.change fun m => .refl 3 m : Keeps (Logs 3) (skipJob p.name)).bind fun _ => ih

end Logged

section Origins

variable {w : World} {declared : Bindings Job} {s : Step} {name : String}

theorem Emits.of_turn {verdict : Bool} (emits : Emits (turn w s verdict) m before e) :
    e = .stepSkipped ∨ e.scope ≤ 1 := by
  unfold turn at emits
  split at emits
  · have succeeded : Keeps (Logs 1) (emit (.stepSucceeded s.displayName)) :=
      .logs_single (fun _ => rfl) fun _ => Nat.le_refl 1
    exact .inr (emits.scope_le ((keeps_step w s).logs.bind fun _ => succeeded))
  · exact .inl (emits.of_single (events_skip s m)).2

theorem Emits.of_reach {i total i' total' : Nat} {label : String}
    (emits : Emits (reach w i total s) m before (.stepReached i' total' label)) :
    before = m.events ∧ i' = i ∧ total' = total ∧ label = s.displayName := by
  have turns : ∀ verdict, Keeps (Logs 2) (turn w s verdict) := fun v => (keeps_turn w s v).logs
  have judging : Keeps (Logs 2) (admitted s) := .of_stays (admitted_stays s)
  rcases emits.bind_inv fun _ => judging.bind turns with first | ⟨_, m₁, -, later⟩
  · obtain ⟨start, same⟩ := first.of_single rfl
    cases same
    exact ⟨start, rfl, rfl, rfl⟩
  rcases later.bind_inv turns with quiet | ⟨verdict, m₂, -, noted⟩
  · exact absurd quiet (Emits.not_of_stays (congrArg _ (admitted_stays s m₁)))
  · rcases noted.of_turn with same | small
    · cases same
    · simp [Event.scope] at small

/-- An event that steps note is noted by one of them, when those before it are passed. -/
theorem Emits.of_steps {total i : Nat} {steps : List Step}
    (emits : Emits (Run.steps w total i steps) m before e) :
    ∃ passed s rest m₁, steps = passed ++ s :: rest ∧
      Run.steps w total i passed m = (.ok (), m₁) ∧
      Emits (reach w (i + passed.length) total s) m₁ before e := by
  induction steps generalizing i m with
  | nil => exact absurd emits (Emits.not_of_stays rfl)
  | cons s r ih =>
    rcases emits.bind_inv fun _ => logs_steps w total (i + 1) r with first | ⟨_, m₁, ran, later⟩
    · exact ⟨[], s, r, m, rfl, rfl, first⟩
    · obtain ⟨passed, s', rest, m₂, rfl, ran', noted⟩ := ih later
      refine ⟨s :: passed, s', rest, m₂, rfl, bind_eq_ok.mpr ⟨(), m₁, ran, ran'⟩, ?_⟩
      rw [List.length_cons, ← Nat.add_assoc, Nat.add_right_comm]
      exact noted

theorem Emits.of_closeJob {j : Job} {outcome : Except Stop Unit}
    (emits : Emits (closeJob name j outcome) m before e) :
    e = .jobFailed name ∨ ∃ outputs, e = .jobSucceeded name outputs := by
  unfold closeJob at emits
  split at emits
  · exact .inr ⟨_, (emits.of_single (events_succeedJob name j m)).2⟩
  · exact .inl (emits.of_single (events_failJob name _ m)).2
  · exact absurd emits (Emits.not_of_stays rfl)

/-- An event that a job notes is about the job as a whole, or one of its steps notes it. -/
theorem Emits.of_job (emits : Emits (job w declared name) m before e) :
    ∃ j, declared.get? name = some j ∧ (before = m.events ∧ e = .jobStarted name ∨
      Emits (Run.steps w j.steps.length 1 j.steps) (openJob name j m).2 before e ∨
      e = .jobFailed name ∨ ∃ outputs, e = .jobSucceeded name outputs) := by
  unfold job at emits
  split at emits
  · exact absurd emits (Emits.not_of_stays rfl)
  rename_i j found
  refine ⟨j, found, ?_⟩
  have trying : Keeps (Logs 3) (attempt (Run.steps w j.steps.length 1 j.steps)) := fun m =>
    (logs_steps w j.steps.length 1 j.steps m).mono (Nat.le_succ 2)
  have closing := logs_closeJob name j
  rcases emits.bind_inv fun _ => trying.bind closing with first | ⟨_, m₁, ran, emits⟩
  · exact .inl (first.of_single (events_openJob name j m))
  cases ran
  rcases emits.bind_inv closing with inner | ⟨outcome, m₂, -, last⟩
  · exact .inr (.inl inner)
  · exact .inr (.inr last.of_closeJob)

end Origins

end Run

end Drydock
