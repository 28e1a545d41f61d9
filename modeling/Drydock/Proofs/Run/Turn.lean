import Drydock.Proofs.Run.Work

set_option autoImplicit false
set_option relaxedAutoImplicit false

/-!
A step in its turn. Main statement: of the data that conditions read, a step changes no more than the
variables and the records of steps, whatever becomes of it.
-/

namespace Drydock.Run

open Machine (Works Turns)

variable {n : Nat} (w : World)

theorem Keeps.turns {α : Type} {x : Run α} (keeps : Keeps Works x) : Keeps (Turns n) x :=
  fun m => (keeps m).turns

theorem Keeps.mono {α : Type} {x : Run α} {k : Nat} (le : n ≤ k) (keeps : Keeps (Turns n) x) :
    Keeps (Turns k) x :=
  fun m => (keeps m).mono le

private theorem keeps_changeState (f : RunState → RunState) : Keeps (Turns n) (changeState f) :=
  .change fun m => ⟨rfl, .refl n m⟩

private theorem keeps_changeContext {f : Context → Context}
    (steps : ∀ c, f c = { c with env := (f c).env, steps := (f c).steps }) :
    Keeps (Turns n) (changeContext f) :=
  .change fun m => ⟨steps m.context, .refl n m⟩

private theorem keeps_emit {e : Event} (small : e.scope ≤ n) : Keeps (Turns n) (emit e) :=
  .change fun m => ⟨rfl, Machine.logs_emit small m⟩

private theorem keeps_emitAll {es : List Event} (small : ∀ e ∈ es, e.scope ≤ n) :
    Keeps (Turns n) (emitAll es) :=
  .change fun _ => ⟨rfl, es, rfl, small⟩

section Outcome

variable (s : Step)

theorem keeps_recordFailure (f : Failure) : Keeps (Turns 1) (recordFailure s f) := by
  refine (keeps_changeState _).bind fun _ => ?_
  split
  · exact (keeps_changeContext fun _ => rfl).bind fun _ => keeps_emit (Nat.le_refl 1)
  · exact keeps_emit (Nat.le_refl 1)

theorem keeps_failStep {α : Type} (f : Failure) : Keeps (Turns 1) (failStep s f : Run α) :=
  (keeps_recordFailure s f).bind fun _ => .fail _

theorem keeps_collect : Keeps (Turns 1) collect := by
  intro m
  unfold collect
  split <;> exact ⟨rfl, .refl 1 m⟩

theorem keeps_merge (values : Channel.Collected) : Keeps (Turns 1) (merge s values) := by
  refine (keeps_changeState _).bind fun _ => (keeps_changeContext fun _ => rfl).bind fun _ => ?_
  refine (keeps_emitAll (List.forall_mem_map.mpr fun _ _ => Nat.le_refl 1)).bind fun _ => ?_
  split
  · refine (keeps_changeState _).bind fun _ => ?_
    exact keeps_emitAll (List.forall_mem_map.mpr fun _ _ => Nat.le_refl 1)
  · exact .pure ()

theorem keeps_recordSuccess (values : Channel.Collected) :
    Keeps (Turns 1) (recordSuccess s values) := by
  refine (keeps_changeState _).bind fun _ => ?_
  split
  · exact .change fun m => ⟨rfl, .refl 1 m⟩
  · exact .pure ()

theorem keeps_finish (outcome : Except Stop Int) : Keeps (Turns 1) (finish s outcome) := by
  unfold finish
  split
  · exact keeps_failStep s _
  · exact keeps_failStep s _
  · exact .stop _
  · split
    · exact keeps_failStep s _
    · refine keeps_collect.bind fun values => ?_
      split
      · exact keeps_failStep s _
      · exact (keeps_merge s _).bind fun _ => keeps_recordSuccess s _

theorem keeps_step : Keeps (Turns 1) (step w s) := by
  refine (keeps_changeState _).bind fun _ => ?_
  split
  · exact .fail _
  · exact (keeps_work w s _).turns.attempt.bind fun outcome => keeps_finish s outcome

theorem keeps_skip : Keeps (Turns 2) (skip s) := by
  unfold skip
  split
  · exact (keeps_changeContext fun _ => rfl).bind fun _ => keeps_emit (Nat.le_refl 2)
  · exact keeps_emit (Nat.le_refl 2)

theorem admitted_stays (m : Machine) : (admitted s m).2 = m := by
  unfold admitted
  split <;> rfl

theorem reach_of_admitted (index total : Nat) {m : Machine} {verdict : Bool}
    (judged : admitted s (m.emit (.stepReached index total s.displayName)) =
      (.ok verdict, m.emit (.stepReached index total s.displayName))) :
    reach w index total s m = turn w s verdict (m.emit (.stepReached index total s.displayName)) := by
  change (admitted s >>= turn w s) (m.emit (.stepReached index total s.displayName)) = _
  rw [bind_apply, judged]

theorem keeps_turn (verdict : Bool) : Keeps (Turns 2) (turn w s verdict) := by
  unfold turn
  split
  · refine ((keeps_step w s).mono (Nat.le_succ 1)).bind fun _ => keeps_emit ?_
    exact Nat.le_succ 1
  · exact keeps_skip s

theorem keeps_reach (index total : Nat) : Keeps (Turns 2) (reach w index total s) := by
  refine (keeps_emit (Nat.le_refl 2)).bind fun _ => ?_
  exact (Keeps.of_stays (admitted_stays s)).bind fun verdict => keeps_turn w s verdict

end Outcome

/-- The steps of a job leave the trigger, the secrets, the matrix and the records of jobs as they
are. -/
theorem keeps_steps (total index : Nat) (steps : List Step) :
    Keeps (Turns 2) (Run.steps w total index steps) := by
  induction steps generalizing index with
  | nil => exact .pure ()
  | cons s r ih => exact (keeps_reach w s index total).bind fun _ => ih (index + 1)

end Drydock.Run
