import Drydock.Docker
import Mathlib.Data.List.Basic
import Mathlib.Order.Basic

set_option autoImplicit false
set_option relaxedAutoImplicit false

/-!
Waiting for a container. Main statement: a wait is cancelled exactly if a look that found the program
running ended after the run had been cancelled, and then the program is killed and has ended; so a
cancellation is missed that comes during the look that finds the end, or before a look that is the first
and the last. Any other wait tells the exit code on the last line of the output, or fails.
-/

namespace Drydock.Docker

/-- What waiting comes to once the program has ended. -/
inductive Ended.Tells (e : Ended) : Except Failure Int → Prop
  | code (front : List (List Char)) (line : List Char) (code : Int) (well : e.code = 0)
      (lines : Text.splitLines (Text.trim e.out.toList) = front ++ [line])
      (reads : Number.readInteger line = .ok code) : Tells e (.ok code)
  | failed (ill : e.code ≠ 0) :
      Tells e (.error (refusal (
        let errors := Text.strip (e.errors.getD "")
        s!"docker wait failed: {errors}")))
  | garbled (well : e.code = 0)
      (other : ∀ front line, Text.splitLines (Text.trim e.out.toList) = front ++ [line] →
        ∀ code, Number.readInteger line ≠ .ok code) :
      Tells e (.error (refusal s!"unexpected docker wait output: {Text.quoted e.out}"))

variable {e : Ended} {w : Watch} {code : Int} {out : String} {r : Except Failure Int} {n : Nat}

theorem exitCode?_eq_some_iff : exitCode? out = some code ↔ ∃ front line,
    Text.splitLines (Text.trim out.toList) = front ++ [line] ∧ Number.readInteger line = .ok code := by
  unfold exitCode?
  rw [Option.bind_eq_some_iff]
  constructor
  · rintro ⟨line, last, reads⟩
    obtain ⟨front, lines⟩ := List.getLast?_eq_some_iff.mp last
    refine ⟨front, line, lines, ?_⟩
    cases read : Number.readInteger line with
    | ok code => simp_all [Except.toOption]
    | error fault => simp_all [Except.toOption]
  · rintro ⟨front, line, lines, reads⟩
    exact ⟨line, by rw [lines, List.getLast?_concat], by rw [reads]; rfl⟩

/-- One thing can be told by how a program ended, and it is concluded. -/
theorem tells_iff : e.Tells r ↔ r = conclude e := by
  constructor
  · intro tells
    unfold conclude
    cases tells with
    | code front line code well lines reads =>
      rw [if_neg (not_not.mpr well), exitCode?_eq_some_iff.mpr ⟨front, line, lines, reads⟩]
    | failed ill => rw [if_pos ill]
    | garbled well other =>
      have none : exitCode? e.out = none := by
        refine Option.eq_none_iff_forall_ne_some.mpr fun code found => ?_
        obtain ⟨front, line, lines, reads⟩ := exitCode?_eq_some_iff.mp found
        exact other front line lines code reads
      rw [if_neg (not_not.mpr well), none]
  · rintro rfl
    unfold conclude
    split
    · rename_i ill
      exact .failed ill
    · rename_i well
      cases found : exitCode? e.out with
      | some code =>
        obtain ⟨front, line, lines, reads⟩ := exitCode?_eq_some_iff.mp found
        exact .code front line code (not_not.mp well) lines reads
      | none =>
        refine .garbled (not_not.mp well) fun front line lines code reads => ?_
        cases found.symm.trans (exitCode?_eq_some_iff.mpr ⟨front, line, lines, reads⟩)

/-- What a wait tells is no cancellation. -/
theorem Ended.Tells.kind_eq {f : Failure} (tells : e.Tells (.error f)) : f.kind = .containerRuntime := by
  cases tells <;> rfl

section Looking

/-- The run was cancelled before a look found that the program had ended. -/
def Watch.IsCancelled (w : Watch) : Prop :=
  ∃ n, w.cancelledAt = some n ∧ n ≤ w.waits + 1

/-- A look that found the program running ended after the run had been cancelled. -/
def Watch.Notices (w : Watch) : Prop :=
  0 < w.waits ∧ ∃ n, w.cancelledAt = some n ∧ n ≤ w.waits

/-- Looks that find the program running and the run not cancelled are followed by further ones. -/
theorem watch_replicate_append (k : Nat) (looks : List Bool) (e : Ended) :
    watch (List.replicate k false ++ looks) e =
      (List.replicate k .look ++ (watch looks e).1, (watch looks e).2) := by
  induction k with
  | zero => rfl
  | succ k ih =>
    rw [List.replicate_succ, List.cons_append, watch, ih]
    rfl

theorem looks_of_not_notices (unnoticed : ¬w.Notices) : w.looks = List.replicate w.waits false := by
  unfold Watch.looks
  refine List.eq_replicate_iff.mpr ⟨by simp, fun b member => ?_⟩
  obtain ⟨k, inside, rfl⟩ := List.mem_map.mp member
  have bound := List.mem_range.mp inside
  cases cancelled : w.cancelledAt with
  | none => rfl
  | some n =>
    refine decide_eq_false fun late => unnoticed ⟨Nat.zero_lt_of_lt bound, n, cancelled, ?_⟩
    exact Nat.le_trans late bound

/-- The first look that ends after the cancellation finds it. -/
theorem exists_looks (cancelled : w.cancelledAt = some n) (some : 0 < w.waits) (early : n ≤ w.waits) :
    ∃ later, w.looks = List.replicate (max n 1 - 1) false ++ true :: later := by
  -- The first look comes even after a cancellation before it; so many looks find nothing before.
  generalize before : max n 1 - 1 = k
  obtain ⟨rest, waits⟩ : ∃ rest, w.waits = k + (rest + 1) := ⟨w.waits - k - 1, by omega⟩
  have unseen : ((List.range k).map fun look => decide (n ≤ look + 1)) = List.replicate k false := by
    refine List.eq_replicate_iff.mpr ⟨by simp, fun b member => ?_⟩
    obtain ⟨look, inside, rfl⟩ := List.mem_map.mp member
    have bound := List.mem_range.mp inside
    exact decide_eq_false (by omega)
  have seen : decide (n ≤ k + 0 + 1) = true := decide_eq_true (by omega)
  unfold Watch.looks
  simp only [cancelled, Option.any_some]
  rw [waits, List.range_add, List.map_append, unseen, List.range_succ_eq_map]
  simp only [List.map_cons, seen]
  exact ⟨_, rfl⟩

theorem course_of_cancelled (cancelled : w.cancelledAt = some n) (some : 0 < w.waits)
    (early : n ≤ w.waits) : w.course = (List.replicate (max n 1) .look ++ [.kill, .reap], none) := by
  obtain ⟨later, looks⟩ := exists_looks cancelled some early
  have counted : max n 1 = max n 1 - 1 + 1 := by omega
  unfold Watch.course
  rw [looks, watch_replicate_append, counted, List.replicate_succ', List.append_assoc]
  rfl

theorem course_of_not_notices (unnoticed : ¬w.Notices) :
    w.course = (List.replicate (w.waits + 1) .look, .some w.ended) := by
  have looks := watch_replicate_append w.waits [] w.ended
  rw [List.append_nil] at looks
  unfold Watch.course
  rw [looks_of_not_notices unnoticed, looks, List.replicate_succ']
  rfl

end Looking

theorem wait_of_notices (d : Docker) (notices : w.Notices) :
    d.wait (some w) = (.error (.of .cancelled Failure.cancelledMessage), true) := by
  obtain ⟨some, n, cancelled, early⟩ := notices
  unfold wait
  dsimp only
  rw [course_of_cancelled cancelled some early]
  simp

theorem wait_of_not_notices (d : Docker) (unnoticed : ¬w.Notices) :
    d.wait (some w) = (conclude w.ended, false) := by
  unfold wait
  dsimp only
  rw [course_of_not_notices unnoticed]
  simp

/-- A cancellation that no look notices came during the look that found the end, or before it where it
was the only one. -/
theorem isCancelled_and_not_notices_iff : w.IsCancelled ∧ ¬w.Notices ↔
    w.cancelledAt = some (w.waits + 1) ∨ w.cancelledAt = some 0 ∧ w.waits = 0 := by
  unfold Watch.IsCancelled Watch.Notices
  cases w.cancelledAt with
  | none => simp
  | some n =>
    simp only [Option.some.injEq, exists_eq_left']
    omega

/-- A wait is cancelled exactly if a look that found the program running ended after the cancellation. Then
the program was looked at up to then, killed, and has ended. Otherwise it was looked at until it had
ended, and its end tells the exit code or the failure. So a cancellation before the end was found is
missed exactly if it came during the last look, or before the only one. -/
theorem wait_cancels (d : Docker) (w : Watch) :
    ((d.wait (some w)).1 = .error (.of .cancelled Failure.cancelledMessage) ↔ w.Notices) ∧
    (∀ n, w.cancelledAt = some n → w.Notices → (d.wait (some w)).2 = true ∧
      w.course.1 = List.replicate (max n 1) .look ++ [.kill, .reap]) ∧
    (¬w.Notices → (d.wait (some w)).2 = false ∧ w.course.1 = List.replicate (w.waits + 1) .look ∧
      ∀ r, w.ended.Tells r ↔ r = (d.wait (some w)).1) ∧
    (w.IsCancelled ∧ ¬w.Notices ↔
      w.cancelledAt = some (w.waits + 1) ∨ w.cancelledAt = some 0 ∧ w.waits = 0) := by
  refine ⟨⟨fun ended => ?_, fun notices => congrArg Prod.fst (wait_of_notices d notices)⟩, ?_, ?_,
    isCancelled_and_not_notices_iff⟩
  · by_contra unnoticed
    rw [wait_of_not_notices d unnoticed] at ended
    cases (tells_iff.mpr ended.symm).kind_eq
  · rintro n cancelled notices
    obtain ⟨some, n', cancelled', early⟩ := id notices
    cases cancelled.symm.trans cancelled'
    exact ⟨congrArg Prod.snd (wait_of_notices d notices),
      congrArg Prod.fst (course_of_cancelled cancelled some early)⟩
  · intro unnoticed
    rw [wait_of_not_notices d unnoticed]
    exact ⟨rfl, congrArg Prod.fst (course_of_not_notices unnoticed), fun r => tells_iff⟩

/-- The run is cancelled before the container is waited for, but the container has exited by the first
look: the exit code is told all the same. -/
theorem wait_misses_cancellation :
    let w : Watch := ⟨0, some 0, ⟨0, "0\n", some ""⟩⟩
    w.IsCancelled ∧ Docker.wait ⟨"docker", 10⟩ (some w) = (.ok 0, false) :=
  ⟨⟨0, rfl, Nat.zero_le 1⟩, by decide +kernel⟩

end Drydock.Docker
