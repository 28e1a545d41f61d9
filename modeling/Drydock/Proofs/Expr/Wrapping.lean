import Drydock.Context
import Drydock.Proofs.Expr.Writing
import Drydock.Proofs.Text.Lines
import Mathlib

set_option autoImplicit false
set_option relaxedAutoImplicit false

/-!
Conditions with a wrapper around them. Main statement: whatever blanks stand around the wrapper and inside
it, a text in it comes to what the text comes to by itself, unless it is empty or has a wrapper of its
own; one wrapper is taken away and no more.
-/

namespace Drydock.Expr

open Text (isBlank strip trim)

variable {text inner front before e after back : String} {lookup : String → Option Value}

/-- A text with the wrapper around it. -/
def wrap (inner : String) : String :=
  "$\x7b\x7b" ++ inner ++ "\x7d\x7d"

/-- A text that begins as a wrapper does and ends as one does. -/
structure IsWrapped (text : String) : Prop where
  opens : "$\x7b\x7b".toList <+: text.toList
  closes : "\x7d\x7d".toList <:+ text.toList

instance (text : String) : Decidable (IsWrapped text) :=
  decidable_of_iff ("$\x7b\x7b".toList <+: text.toList ∧ "\x7d\x7d".toList <:+ text.toList)
    ⟨fun marks => ⟨marks.1, marks.2⟩, fun wrapped => ⟨wrapped.opens, wrapped.closes⟩⟩

/-- The two ends of a wrapper have no character in common, so they cannot overlap. -/
theorem isWrapped_iff : IsWrapped text ↔ ∃ inner, text = wrap inner := by
  constructor
  · rintro ⟨⟨rest, opens⟩, ⟨init, closes⟩⟩
    have both := opens.trans closes.symm
    rcases List.append_eq_append_iff.mp both with ⟨inner, -, ends⟩ | ⟨shared, begins, ends⟩
    · refine ⟨String.ofList inner, String.toList_inj.mp ?_⟩
      rw [← opens, ends]
      simp [wrap]
    · cases shared with
      | nil =>
        refine ⟨"", String.toList_inj.mp ?_⟩
        obtain rfl : "\x7d\x7d".toList = rest := ends
        rw [← opens]
        rfl
      | cons c shared =>
        have closing : c ∈ "\x7d\x7d".toList := ends ▸ List.mem_cons_self
        have opening : c ∈ "$\x7b\x7b".toList :=
          begins ▸ List.mem_append_right init List.mem_cons_self
        simp at closing opening
        simp [closing] at opening
  · rintro ⟨inner, rfl⟩
    refine ⟨⟨inner.toList ++ "\x7d\x7d".toList, ?_⟩, ⟨"$\x7b\x7b".toList ++ inner.toList, ?_⟩⟩
    · simp [wrap]
    · simp [wrap]

theorem unwrapped?_wrap (inner : String) : unwrapped? (wrap inner).toList = some inner.toList :=
  unwrapped?_eq_some_iff.mpr (by simp [wrap])

theorem unwrapped?_of_not_isWrapped (bare : ¬IsWrapped text) : unwrapped? text.toList = none := by
  cases found : unwrapped? text.toList with
  | none => rfl
  | some inner =>
    refine absurd (isWrapped_iff.mpr ⟨String.ofList inner, String.toList_inj.mp ?_⟩) bare
    rw [unwrapped?_eq_some_iff.mp found]
    simp [wrap]

section Stripping

theorem trim_wrap (inner : String) : trim (wrap inner).toList = (wrap inner).toList := by
  have whole : (wrap inner).toList = "$\x7b\x7b".toList ++ inner.toList ++ ['\x7d'] ++ ['\x7d'] := by
    simp [wrap]
  refine Text.trim_eq_self_iff.mpr ⟨fun c first => ?_, fun c last => ?_⟩
  · obtain rfl : '$' = c := by simpa [whole] using first
    decide
  · rw [whole, List.getLast?_concat] at last
    obtain rfl : '\x7d' = c := by simpa using last
    decide

theorem stripWrapper_wrap (outside : ∀ s ∈ [front, back], ∀ c ∈ s.toList, isBlank c = true)
    (inner : String) : stripWrapper (front ++ wrap inner ++ back) = strip inner := by
  have trimmed : trim (front ++ wrap inner ++ back).toList = (wrap inner).toList := by
    rw [String.toList_append, Text.trim_append_right (outside back (by simp)), String.toList_append,
      Text.trim_append_left (outside front (by simp)), trim_wrap]
  simp only [stripWrapper, trimmed, unwrapped?_wrap, strip]

theorem strip_padded (inside : ∀ s ∈ [before, after], ∀ c ∈ s.toList, isBlank c = true) (e : String) :
    strip (before ++ e ++ after) = strip e := by
  rw [strip, String.toList_append, Text.trim_append_right (inside after (by simp)),
    String.toList_append, Text.trim_append_left (inside before (by simp)), strip]

theorem stripWrapper_of_not_isWrapped (bare : ¬IsWrapped (strip e)) : stripWrapper e = strip e := by
  have plain := unwrapped?_of_not_isWrapped bare
  rw [strip, String.toList_ofList] at plain
  simp only [stripWrapper, plain, strip]

end Stripping

/-- Of a text that is not empty only what stands in the wrapper matters. -/
theorem evaluate_eq_of_stripWrapper {text' : String} (same : stripWrapper text = stripWrapper text')
    (content : stripWrapper text' ≠ "") : evaluate lookup text = evaluate lookup text' := by
  simp only [evaluate, same, if_neg content]

/-- A wrapper inside the wrapper is refused at its first character. -/
theorem evaluate_of_stripWrapper_isWrapped (wrapped : IsWrapped (stripWrapper text)) :
    evaluate lookup text =
      .error (.badSyntax ⟨.unexpectedChar '$', some 0⟩ (stripWrapper text)) := by
  obtain ⟨inner, within⟩ := isWrapped_iff.mp wrapped
  have content : stripWrapper text ≠ "" := by
    rw [within]
    simp [wrap]
  have refused : tokenize (stripWrapper text) = .error ⟨.unexpectedChar '$', some 0⟩ := by
    have visible : isBlank '$' = false := by decide
    rw [within]
    simp [tokenize, wrap, tokensFrom, visible, lexeme_dollar]
  simp only [evaluate, if_neg content, parse, refused]

/-- A text in a wrapper, with blanks around it and around the wrapper, has the value and the trace, or
the fault, that it has by itself. An empty one is refused, and so is one that has a wrapper of its own,
at the dollar sign. -/
theorem evaluate_wrapped (lookup : String → Option Value) (front before e after back : String)
    (blanks : ∀ s ∈ [front, before, after, back], ∀ c ∈ s.toList, isBlank c = true) :
    let text := front ++ wrap (before ++ e ++ after) ++ back
    (strip e ≠ "" → ¬IsWrapped (strip e) →
      stripWrapper text = strip e ∧ evaluate lookup text = evaluate lookup e) ∧
    (strip e = "" → evaluate lookup text = .error (.badSyntax ⟨.empty, none⟩ text)) ∧
    (IsWrapped (strip e) →
      evaluate lookup text = .error (.badSyntax ⟨.unexpectedChar '$', some 0⟩ (strip e))) := by
  intro text
  have outside : ∀ s ∈ [front, back], ∀ c ∈ s.toList, isBlank c = true := by
    simp only [List.forall_mem_cons] at blanks ⊢
    tauto
  have inside : ∀ s ∈ [before, after], ∀ c ∈ s.toList, isBlank c = true := by
    simp only [List.forall_mem_cons] at blanks ⊢
    tauto
  have source : stripWrapper text = strip e :=
    (stripWrapper_wrap outside _).trans (strip_padded inside e)
  refine ⟨fun content bare => ⟨source, ?_⟩, fun none => ?_, fun wrapped => ?_⟩
  · have own := stripWrapper_of_not_isWrapped bare
    exact evaluate_eq_of_stripWrapper (source.trans own.symm) (own ▸ content)
  · simp only [evaluate, source, if_pos none]
  · rw [← source] at wrapped ⊢
    exact evaluate_of_stripWrapper_isWrapped wrapped

theorem evaluate_wrapped_braces :
    (∀ s ∈ ["\n", " \t", "\u00a0", "\u3000"], ∀ c ∈ s.toList, isBlank c = true) ∧
      strip "github.ref != '\x7d\x7d'" ≠ "" ∧ ¬IsWrapped (strip "github.ref != '\x7d\x7d'") ∧
      evaluate Context.empty.lookup "\n$\x7b\x7b \tgithub.ref != '\x7d\x7d'\u00a0\x7d\x7d\u3000" =
        evaluate Context.empty.lookup "github.ref != '\x7d\x7d'" := by
  have blanks : ∀ s ∈ ["\n", " \t", "\u00a0", "\u3000"], ∀ c ∈ s.toList, isBlank c = true := by
    have all : ["\n", " \t", "\u00a0", "\u3000"].all (·.toList.all isBlank) = true := by decide
    simpa using all
  have content : strip "github.ref != '\x7d\x7d'" ≠ "" := by decide +kernel
  have bare : ¬IsWrapped (strip "github.ref != '\x7d\x7d'") := by decide +kernel
  have same := (evaluate_wrapped Context.empty.lookup _ _ _ _ _ blanks).1 content bare
  exact ⟨blanks, content, bare, same.2⟩

end Drydock.Expr
