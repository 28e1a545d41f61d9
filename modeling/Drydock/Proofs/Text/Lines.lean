import Drydock.Text.Blank
import Drydock.Text.Lines
import Mathlib.Data.List.DropRight
import Mathlib.Data.List.Infix

set_option autoImplicit false
set_option relaxedAutoImplicit false

/-!
Trimmed texts and the lines of a text. Main statements: a text is trimmed exactly if no blank stands at
its ends; lines that are not empty and are joined by line feeds are found again; and between the lines
of two texts that are joined by a line feed there is at most an empty line.
-/

namespace Drydock.Text

variable {cs l r front back : List Char} {c : Char} {ls : List (List Char)}

section Trimming

theorem isPrefix_trimEnd (cs : List Char) : trimEnd cs <+: cs :=
  List.rdropWhile_prefix isBlank cs

theorem trim_infix (cs : List Char) : trim cs <:+: cs :=
  (isPrefix_trimEnd _).isInfix.trans (List.dropWhile_suffix isBlank).isInfix

theorem not_isBlank_of_mem_head?_trim : ∀ c ∈ (trim cs).head?, isBlank c = false := by
  intro c first
  obtain ⟨rest, whole⟩ := isPrefix_trimEnd (trimStart cs)
  have start : (trimStart cs).head? = some c := by
    rw [← whole, List.head?_append]
    exact congrArg (Option.or · rest.head?) first
  have kept := List.head?_dropWhile_not isBlank cs
  rw [trimStart] at start
  simpa [start] using kept

theorem not_isBlank_of_mem_getLast?_trim : ∀ c ∈ (trim cs).getLast?, isBlank c = false := by
  intro c last
  obtain ⟨some, rfl⟩ := List.mem_getLast?_eq_getLast last
  have kept := List.rdropWhile_last_not isBlank (trimStart cs) some
  exact Bool.not_eq_true _ ▸ kept

theorem trim_eq_self_iff : trim cs = cs ↔
    (∀ c ∈ cs.head?, isBlank c = false) ∧ ∀ c ∈ cs.getLast?, isBlank c = false := by
  constructor
  · intro trimmed
    rw [← trimmed]
    exact ⟨not_isBlank_of_mem_head?_trim, not_isBlank_of_mem_getLast?_trim⟩
  · rintro ⟨first, last⟩
    have start : trimStart cs = cs := by
      cases cs with
      | nil => rfl
      | cons c r => exact List.dropWhile_cons_of_neg (by simpa using first c rfl)
    rw [trim, start]
    refine List.rdropWhile_eq_self_iff.mpr fun some => ?_
    simpa using last _ (List.getLast?_eq_some_getLast some)

theorem trim_trim (cs : List Char) : trim (trim cs) = trim cs :=
  trim_eq_self_iff.mpr ⟨not_isBlank_of_mem_head?_trim, not_isBlank_of_mem_getLast?_trim⟩

theorem trim_append_left (blank : ∀ c ∈ front, isBlank c = true) (cs : List Char) :
    trim (front ++ cs) = trim cs := by
  rw [trim, trim, trimStart, trimStart, List.dropWhile_append_of_pos blank]

theorem trim_append_right (blank : ∀ c ∈ back, isBlank c = true) (cs : List Char) :
    trim (cs ++ back) = trim cs := by
  have ends (cs : List Char) : trimEnd (cs ++ back) = trimEnd cs := by
    rw [trimEnd, trimEnd, List.reverse_append, List.dropWhile_append_of_pos]
    simpa using blank
  -- What follows the blanks at the start is gone with them if there is nothing else.
  rw [trim, trim, trimStart, trimStart, List.dropWhile_append]
  split
  · rename_i none
    rw [List.isEmpty_iff.mp none, List.dropWhile_eq_nil_iff.mpr blank]
  · exact ends _

end Trimming

section Lines

theorem splitLines_cons_of_boundary (boundary : isLineBoundary c = true)
    (apart : c = '\r' → r.head? ≠ some '\n') : splitLines (c :: r) = [] :: splitLines r := by
  rw [splitLines, if_pos boundary]
  rintro r rfl rfl
  exact apart rfl rfl

theorem splitLines_cons_of_eq_nil (inner : isLineBoundary c = false) (last : splitLines r = []) :
    splitLines (c :: r) = [[c]] := by
  rw [splitLines, inner, last]
  · rfl
  · rintro r rfl rfl
    cases inner

theorem splitLines_cons_of_eq_cons (inner : isLineBoundary c = false) (more : splitLines r = l :: ls) :
    splitLines (c :: r) = (c :: l) :: ls := by
  rw [splitLines, inner, more]
  · rfl
  · rintro r rfl rfl
    cases inner

theorem splitLines_eq_nil_iff : splitLines cs = [] ↔ cs = [] := by
  fun_cases splitLines cs <;> simp

theorem mem_of_mem_splitLines (line : l ∈ splitLines cs) (member : c ∈ l) :
    c ∈ cs ∧ isLineBoundary c = false := by
  fun_induction splitLines cs generalizing l with
  | case1 => simp at line
  | case2 r ih => grind
  | case3 d r unpaired boundary ih => grind
  | case4 d r unpaired inner last ih => grind
  | case5 d r unpaired inner l' ls more ih => grind

/-- The gap is empty if the first text ends within a line, and if its last character is a carriage
return, which makes one boundary with the line feed. -/
theorem exists_splitLines_append (cs ds : List Char) :
    ∃ gap, (gap = [] ∨ gap = [[]]) ∧
      splitLines (cs ++ '\n' :: ds) = splitLines cs ++ gap ++ splitLines ds := by
  fun_induction splitLines cs with
  | case1 => exact ⟨[[]], .inr rfl, rfl⟩
  | case2 r ih =>
    obtain ⟨gap, small, joined⟩ := ih
    exact ⟨gap, small, congrArg ([] :: ·) joined⟩
  | case3 c r unpaired boundary ih =>
    obtain ⟨gap, small, joined⟩ := ih
    by_cases pairs : c = '\r' ∧ r = []
    · obtain ⟨rfl, rfl⟩ := pairs
      exact ⟨[], .inl rfl, rfl⟩
    · have apart : c = '\r' → (r ++ '\n' :: ds).head? ≠ some '\n' := by
        rintro rfl
        cases r with
        | nil => simp at pairs
        | cons d r => simpa using fun same => unpaired r rfl (by rw [same])
      refine ⟨gap, small, ?_⟩
      rw [List.cons_append, splitLines_cons_of_boundary boundary apart, joined]
      rfl
  | case4 c r unpaired inner last ih =>
    cases splitLines_eq_nil_iff.mp last
    exact ⟨[], .inl rfl, splitLines_cons_of_eq_cons (by simpa using inner) rfl⟩
  | case5 c r unpaired inner l ls more ih =>
    obtain ⟨gap, small, joined⟩ := ih
    rw [more] at joined
    exact ⟨gap, small, splitLines_cons_of_eq_cons (by simpa using inner) joined⟩

theorem splitLines_append_of_inner (inner : ∀ c ∈ l, isLineBoundary c = false) (r : List Char) :
    splitLines (l ++ '\n' :: r) = l :: splitLines r := by
  induction l with
  | nil => rfl
  | cons c l ih =>
    obtain ⟨first, rest⟩ := List.forall_mem_cons.mp inner
    exact splitLines_cons_of_eq_cons first (ih rest)

theorem splitLines_of_inner (inner : ∀ c ∈ l, isLineBoundary c = false) (some : l ≠ []) :
    splitLines l = [l] := by
  induction l with
  | nil => exact absurd rfl some
  | cons c l ih =>
    obtain ⟨first, rest⟩ := List.forall_mem_cons.mp inner
    cases l with
    | nil => exact splitLines_cons_of_eq_nil first rfl
    | cons d l => exact splitLines_cons_of_eq_cons first (ih rest (List.cons_ne_nil d l))

theorem mem_of_mem_intercalate {sep : List Char} (member : c ∈ sep.intercalate ls) :
    c ∈ sep ∨ ∃ l ∈ ls, c ∈ l := by
  induction ls with
  | nil => cases member
  | cons l ls ih =>
    cases ls with
    | nil => exact .inr ⟨l, List.mem_cons_self, by simpa using member⟩
    | cons l' ls =>
      rw [List.intercalate_cons_cons, List.append_assoc, List.mem_append, List.mem_append] at member
      rcases member with first | between | later
      · exact .inr ⟨l, List.mem_cons_self, first⟩
      · exact .inl between
      · exact (ih later).imp_right fun ⟨k, more, found⟩ => ⟨k, List.mem_cons_of_mem l more, found⟩

/-- Of an empty line at the end nothing would be found. -/
theorem splitLines_intercalate (inner : ∀ l ∈ ls, ∀ c ∈ l, isLineBoundary c = false)
    (some : ∀ l ∈ ls, l ≠ []) : splitLines (['\n'].intercalate ls) = ls := by
  induction ls with
  | nil => rfl
  | cons l ls ih =>
    obtain ⟨first, rest⟩ := List.forall_mem_cons.mp inner
    obtain ⟨someFirst, someRest⟩ := List.forall_mem_cons.mp some
    cases ls with
    | nil => simpa using splitLines_of_inner first someFirst
    | cons l' ls =>
      rw [List.intercalate_cons_cons, List.append_assoc, List.singleton_append,
        splitLines_append_of_inner first, ih rest someRest]

end Lines

end Drydock.Text
