import Drydock.Run.Execution
import Mathlib.Order.Defs.Unbundled

set_option autoImplicit false
set_option relaxedAutoImplicit false

/-!
What parts of a run may change. A part keeps a relation between the machine before and after, however
it ends; main statements: the relations for the work of a step and for its turn can be chained, and a
part that is made of parts keeps what all of them keep.
-/

namespace Drydock

/-- How far out in a run an event belongs: to the work of a step, to what comes of that work, to the
turn of a step, to a job, or to the run. -/
def Event.scope : Event → Nat
  | .imageChosen _ | .containerOutput _ | .called _ | .tidyingFailed _ _ | .cloned _ => 0
  | .stepSucceeded _ | .stepFailed _ _ | .envSet _ _ | .outputSet _ _ _ => 1
  | .stepReached _ _ _ | .stepSkipped => 2
  | .jobStarted _ | .jobFailed _ | .jobSucceeded _ _ => 3
  | .engineClosed => 4

theorem Event.calls_append (es es' : List Event) :
    Event.calls (es ++ es') = Event.calls es ++ Event.calls es' :=
  List.filterMap_append

theorem Event.calls_eq_nil {es : List Event} (outer : ∀ e ∈ es, e.scope ≠ 0) :
    Event.calls es = [] := by
  refine List.filterMap_eq_nil_iff.mpr fun e member => ?_
  have far := outer e member
  cases e with
  | called c => exact absurd rfl far
  | _ => rfl

namespace Machine

/-- Events of at most the given scope have been added. -/
def Logs (n : Nat) (m m' : Machine) : Prop :=
  ∃ es, m'.events = m.events ++ es ∧ ∀ e ∈ es, e.scope ≤ n

/-- What the work of a step does at most. -/
structure Works (m m' : Machine) : Prop where
  context : m'.context = m.context
  state : m'.state = { m.state with channel := m'.state.channel, live := m'.state.live }
  logs : Logs 0 m m'

/-- What a step in its turn does at most, as far as the scope of its events goes. -/
structure Turns (n : Nat) (m m' : Machine) : Prop where
  context : m'.context = { m.context with env := m'.context.env, steps := m'.context.steps }
  logs : Logs n m m'

variable {n k : Nat} {m m' m'' : Machine}

theorem Logs.refl (n : Nat) (m : Machine) : Logs n m m :=
  ⟨[], by simp, nofun⟩

theorem Logs.trans (first : Logs n m m') (second : Logs n m' m'') : Logs n m m'' := by
  obtain ⟨es, events, small⟩ := first
  obtain ⟨es', events', small'⟩ := second
  refine ⟨es ++ es', by rw [events', events, List.append_assoc], ?_⟩
  intro e found
  exact (List.mem_append.mp found).elim (small e) (small' e)

theorem Logs.mono (le : n ≤ k) (logs : Logs n m m') : Logs k m m' := by
  obtain ⟨es, events, small⟩ := logs
  exact ⟨es, events, fun e found => Nat.le_trans (small e found) le⟩

theorem events_emit (m : Machine) (e : Event) : (m.emit e).events = m.events ++ [e] := rfl

theorem logs_emit {e : Event} (small : e.scope ≤ n) (m : Machine) : Logs n m (m.emit e) :=
  ⟨[e], rfl, by simpa using small⟩

theorem works_emit {e : Event} (small : e.scope = 0) (m : Machine) : Works m (m.emit e) :=
  ⟨rfl, rfl, logs_emit (Nat.le_of_eq small) m⟩

instance : IsPreorder Machine (Logs n) where
  refl := .refl n
  trans _ _ _ := .trans

instance : IsPreorder Machine Works where
  refl m := ⟨rfl, rfl, .refl 0 m⟩
  trans m m' m'' first second := by
    refine ⟨second.context.trans first.context, ?_, first.logs.trans second.logs⟩
    rw [second.state, first.state]

instance : IsPreorder Machine (Turns n) where
  refl m := ⟨rfl, .refl n m⟩
  trans m m' m'' first second := by
    refine ⟨?_, first.logs.trans second.logs⟩
    rw [second.context, first.context]

theorem Turns.mono (le : n ≤ k) (turns : Turns n m m') : Turns k m m' :=
  ⟨turns.context, turns.logs.mono le⟩

theorem Works.turns (works : Works m m') : Turns n m m' :=
  ⟨by rw [works.context], works.logs.mono (Nat.zero_le n)⟩

end Machine

namespace Run

open Machine (Works Turns)

variable {α β : Type} {R : Machine → Machine → Prop}

/-- However a part of a run ends, the machine is related to what it was before. -/
def Keeps (R : Machine → Machine → Prop) (x : Run α) : Prop :=
  ∀ m, R m (x m).2

theorem bind_eq_ok {x : Run α} {f : α → Run β} {m m' : Machine} {b : β} :
    (x >>= f) m = (.ok b, m') ↔ ∃ a m₁, x m = (.ok a, m₁) ∧ f a m₁ = (.ok b, m') := by
  rw [bind_apply]
  constructor
  · intro ran
    rcases found : x m with ⟨s | a, m₁⟩
    · simp [found] at ran
    · exact ⟨a, m₁, rfl, by simpa [found] using ran⟩
  · rintro ⟨a, m₁, first, second⟩
    rw [first]
    exact second

theorem bind_eq_error {x : Run α} {f : α → Run β} {m m' : Machine} {s : Stop} :
    (x >>= f) m = (.error s, m') ↔
      x m = (.error s, m') ∨ ∃ a m₁, x m = (.ok a, m₁) ∧ f a m₁ = (.error s, m') := by
  rw [bind_apply]
  rcases x m with ⟨s' | a, m₁⟩
  · simp
  · simp [and_assoc]

@[simp] theorem settle_apply (outcome : Except Stop α) (m : Machine) :
    settle outcome m = (outcome, m) := by
  cases outcome <;> rfl

namespace Keeps

variable [IsPreorder Machine R]

theorem of_stays {x : Run α} (stays : ∀ m, (x m).2 = m) : Keeps R x := by
  intro m
  rw [stays]
  exact refl_of R m

theorem pure (a : α) : Keeps R (Pure.pure a : Run α) := of_stays fun _ => rfl

theorem stop (s : Stop) : Keeps R (Run.stop s : Run α) := of_stays fun _ => rfl

theorem fail (f : Failure) : Keeps R (Run.fail f : Run α) := of_stays fun _ => rfl

theorem read (f : Machine → α) : Keeps R (Run.read f) := of_stays fun _ => rfl

theorem settle (outcome : Except Stop α) : Keeps R (Run.settle outcome) := by
  cases outcome with
  | ok a => exact pure a
  | error s => exact stop s

omit [IsPreorder Machine R] in
theorem attempt {x : Run α} (keeps : Keeps R x) : Keeps R (Run.attempt x) := keeps

omit [IsPreorder Machine R] in
theorem change {f : Machine → Machine} (related : ∀ m, R m (f m)) : Keeps R (Run.change f) := related

theorem bind {x : Run α} {f : α → Run β} (first : Keeps R x) (second : ∀ a, Keeps R (f a)) :
    Keeps R (x >>= f) := by
  intro m
  have before := first m
  rw [bind_apply]
  generalize x m = r at before ⊢
  rcases r with ⟨s | a, m₁⟩
  · exact before
  · exact trans_of R before (second a m₁)

theorem after_first {x : Run α} {f : α → Run β} (second : ∀ a, Keeps R (f a)) (m : Machine) :
    R (x m).2 ((x >>= f) m).2 := by
  rw [bind_apply]
  rcases x m with ⟨s | a, m₁⟩
  · exact refl_of R m₁
  · exact second a m₁

end Keeps

end Run

end Drydock
