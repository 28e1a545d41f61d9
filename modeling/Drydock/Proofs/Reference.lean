import Drydock.Context
import Drydock.Proofs.Text.Pieces
import Drydock.Reference

set_option autoImplicit false
set_option relaxedAutoImplicit false

/-!
References written out. Main statements: the spelling of a reference to an output with plain names is
read back as that reference, and as a path it has the same names as segments.
-/

namespace Drydock

namespace Text

theorem words_of_no_blank {cs : List Char} (some : cs ≠ []) (solid : ∀ c ∈ cs, isBlank c = false) :
    words cs = [cs] := by
  induction cs with
  | nil => exact absurd rfl some
  | cons c r ih =>
    have first := solid c List.mem_cons_self
    cases r with
    | nil => simp [words, first]
    | cons d r =>
      have second := solid d (List.mem_cons_of_mem c List.mem_cons_self)
      have rest := ih (List.cons_ne_nil d r) fun x member => solid x (List.mem_cons_of_mem c member)
      simp only [words, first, second, Bool.false_eq_true, if_false] at rest ⊢
      rw [rest]

end Text

namespace Reference

open Text (splitAtChar isBlank)

/-- A name that a reference can spell: it is not empty and holds no point and no blank. -/
structure IsPlain (name : String) : Prop where
  nonempty : name ≠ ""
  noPoint : '.' ∉ name.toList
  noBlank : ∀ c ∈ name.toList, isBlank c = false

variable {id name : String}

theorem IsPlain.toList_ne_nil (plain : IsPlain name) : name.toList ≠ [] :=
  fun none => plain.nonempty (String.toList_eq_nil_iff.mp none)

theorem toList_spelling_output (id name : String) :
    (output id name).spelling.toList =
      "steps".toList ++ '.' :: (id.toList ++ '.' :: ("outputs".toList ++ '.' :: name.toList)) := by
  simp [spelling]

theorem splitAtChar_spelling (plainId : IsPlain id) (plainName : IsPlain name) :
    splitAtChar '.' (output id name).spelling.toList =
      ["steps".toList, id.toList, "outputs".toList, name.toList] := by
  rw [toList_spelling_output, Text.splitAtChar_append (by decide),
    Text.splitAtChar_append plainId.noPoint, Text.splitAtChar_append (by decide),
    Text.splitAtChar_of_notMem plainName.noPoint]

theorem segments_spelling (plainId : IsPlain id) (plainName : IsPlain name) :
    Context.segments (output id name).spelling = ["steps", id, "outputs", name] := by
  simp [Context.segments, splitAtChar_spelling plainId plainName, plainId.toList_ne_nil,
    plainName.toList_ne_nil]

private theorem solid_of_all {cs : List Char} (solid : cs.all (!isBlank ·) = true) :
    ∀ c ∈ cs, isBlank c = false := by
  simpa using solid

theorem parse?_spelling (plainId : IsPlain id) (plainName : IsPlain name) :
    parse? (output id name).spelling.toList = some (output id name) := by
  have scope : ∀ c ∈ "steps".toList, isBlank c = false := solid_of_all (by decide)
  have kind : ∀ c ∈ "outputs".toList, isBlank c = false := solid_of_all (by decide)
  have solid : ∀ c ∈ (output id name).spelling.toList, isBlank c = false := by
    intro c member
    rw [toList_spelling_output] at member
    simp only [List.mem_append, List.mem_cons] at member
    rcases member with member | rfl | member | rfl | member | rfl | member
    · exact scope c member
    · decide
    · exact plainId.noBlank c member
    · decide
    · exact kind c member
    · decide
    · exact plainName.noBlank c member
  have some : (output id name).spelling.toList ≠ [] := by
    rw [toList_spelling_output]
    exact List.cons_ne_nil _ _
  simp [parse?, Text.words_of_no_blank some solid, splitAtChar_spelling plainId plainName,
    ofSegments?, plainId.toList_ne_nil, plainName.toList_ne_nil]

end Reference

end Drydock
