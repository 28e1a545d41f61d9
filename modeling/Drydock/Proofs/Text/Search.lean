import Drydock.Text.Search
import Mathlib.Data.List.Infix

set_option autoImplicit false
set_option relaxedAutoImplicit false

/-!
Where parts stand in a text. Main statements: a text is cut at the first place where the separator
stands, and not at all exactly if it stands nowhere; an occurrence at the start of a text is
replaced as a whole, and a character where none starts stays.
-/

namespace Drydock.Text

/-- A part stands in a text after so many characters. -/
def StandsAt (part cs : List Char) (i : Nat) : Prop :=
  part <+: cs.drop i

variable {part sep cs before rest : List Char} {i : Nat}

/-- Characters in front of a text shift the places in it. -/
theorem standsAt_append (front : List Char) :
    StandsAt part (front ++ cs) (front.length + i) ↔ StandsAt part cs i := by
  rw [StandsAt, StandsAt, List.drop_length_add_append]

theorem after?_eq_none_iff : after? part cs = none ↔ ¬part <+: cs := by
  rw [Option.eq_none_iff_forall_ne_some]
  constructor
  · rintro refused ⟨r, rfl⟩
    exact refused r (after?_eq_some_iff.mpr rfl)
  · intro apart r found
    exact apart ⟨r, (after?_eq_some_iff.mp found).symm⟩

theorem isSome_after?_iff : (after? part cs).isSome = true ↔ part <+: cs := by
  rw [← not_iff_not, ← after?_eq_none_iff, Option.not_isSome_iff_eq_none]

theorem occursIn_iff : occursIn part cs = true ↔ part <:+: cs := by
  induction cs with
  | nil => rw [occursIn, isSome_after?_iff, List.prefix_nil, List.infix_nil]
  | cons c cs ih =>
    rw [occursIn, Bool.or_eq_true, List.infix_cons_iff]
    exact or_congr isSome_after?_iff ih

theorem cutAt?_eq_none_iff : cutAt? sep cs = none ↔ ∀ i, ¬StandsAt sep cs i := by
  induction cs with
  | nil => simp [cutAt?, after?_eq_none_iff, StandsAt]
  | cons c cs ih =>
    rw [cutAt?]
    cases found : after? sep (c :: cs) with
    | some r =>
      have first : StandsAt sep (c :: cs) 0 := ⟨r, (after?_eq_some_iff.mp found).symm⟩
      simp only [reduceCtorEq, false_iff, not_forall, not_not]
      exact ⟨0, first⟩
    | none =>
      simp only [Option.map_eq_none_iff, ih]
      constructor
      · rintro nowhere (_ | i)
        · exact after?_eq_none_iff.mp found
        · exact nowhere i
      · exact fun nowhere i => nowhere (i + 1)

/-- Nothing of the separator stands before the place where a text is cut. -/
theorem not_standsAt_of_cutAt? (cut : cutAt? sep cs = some (before, rest)) :
    ∀ i < before.length, ¬StandsAt sep cs i := by
  induction cs generalizing before with
  | nil =>
    simp only [cutAt?, Option.map_eq_some_iff, Prod.mk.injEq] at cut
    obtain ⟨r, found, rfl, rfl⟩ := cut
    simp
  | cons c cs ih =>
    rw [cutAt?] at cut
    cases found : after? sep (c :: cs) with
    | some r =>
      rw [found] at cut
      cases cut
      simp
    | none =>
      simp only [found, Option.map_eq_some_iff, Prod.mk.injEq, Prod.exists] at cut
      obtain ⟨before, rest, cut, rfl, rfl⟩ := cut
      rintro (_ | i) near
      · exact after?_eq_none_iff.mp found
      · exact ih cut i (Nat.lt_of_succ_lt_succ near)

/-- The separator stands where a text is cut. -/
theorem standsAt_of_cutAt? (cut : cutAt? sep cs = some (before, rest)) :
    StandsAt sep cs before.length := by
  refine ⟨rest, ?_⟩
  rw [eq_of_cutAt? cut]
  simp

theorem cutAt?_append_cons {c : Char} (free : c ∉ before) :
    cutAt? [c] (before ++ c :: rest) = some (before, rest) := by
  induction before with
  | nil => simp [cutAt?, after?]
  | cons d before ih =>
    rw [List.mem_cons, not_or] at free
    simp [cutAt?, after?, free.1, ih free.2]

/-- Where the separator is one character, nothing before the cut is that character. -/
theorem cutAt?_singleton_eq_some_iff {c : Char} :
    cutAt? [c] cs = some (before, rest) ↔ cs = before ++ c :: rest ∧ c ∉ before := by
  constructor
  · intro cut
    have whole : cs = before ++ c :: rest := by simpa using eq_of_cutAt? cut
    refine ⟨whole, fun member => ?_⟩
    obtain ⟨front, back, rfl⟩ := List.append_of_mem member
    refine not_standsAt_of_cutAt? cut front.length (by simp) ⟨back ++ c :: rest, ?_⟩
    simp [whole]
  · rintro ⟨rfl, free⟩
    exact cutAt?_append_cons free

section Replacing

variable {old new : List Char}

theorem replaceFrom_append (front rest : List Char) :
    replaceFrom old new front.length (front ++ rest) = replaceFrom old new 0 rest := by
  induction front with
  | nil => rfl
  | cons _ _ ih => exact ih

theorem replaceAll_append (c : Char) (part rest : List Char) :
    replaceAll (c :: part) new (c :: part ++ rest) = new ++ replaceAll (c :: part) new rest := by
  have found : after? (c :: part) (c :: (part ++ rest)) = some rest := after?_eq_some_iff.mpr rfl
  rw [replaceAll, List.cons_append, replaceFrom]
  simp only [found, List.length_cons, Nat.add_sub_cancel]
  exact congrArg (new ++ ·) (replaceFrom_append part rest)

theorem replaceAll_cons {c : Char} (absent : ¬old <+: c :: cs) :
    replaceAll old new (c :: cs) = c :: replaceAll old new cs := by
  rw [replaceAll, replaceFrom, after?_eq_none_iff.mpr absent]
  rfl

/-- To replace one character by another is to map the characters. -/
theorem replaceAll_singleton (c d : Char) (cs : List Char) :
    replaceAll [c] [d] cs = cs.map fun e => if e = c then d else e := by
  induction cs with
  | nil => rfl
  | cons e cs ih =>
    rw [List.map_cons, ← ih]
    by_cases same : e = c
    · rw [if_pos same, same]
      exact replaceAll_append c [] cs
    · rw [if_neg same]
      exact replaceAll_cons fun starts => same (List.cons_prefix_cons.mp starts).1.symm

end Replacing

end Drydock.Text
