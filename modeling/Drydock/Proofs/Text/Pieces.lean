import Drydock.Text.Search
import Mathlib.Data.List.Basic

set_option autoImplicit false
set_option relaxedAutoImplicit false

/-!
Texts cut at a character. Main statements: the pieces are the texts without that character which, joined
by it, make the text again, and there is no other way to join some.
-/

namespace Drydock.Text

variable {sep c : Char} {p cs : List Char} {ps : List (List Char)}

theorem splitAtChar_of_notMem (absent : sep ∉ cs) : splitAtChar sep cs = [cs] := by
  induction cs with
  | nil => rfl
  | cons c r ih =>
    simp only [List.mem_cons, not_or] at absent
    rw [splitAtChar, if_neg (Ne.symm absent.1), ih absent.2]

theorem splitAtChar_append (absent : sep ∉ cs) (rest : List Char) :
    splitAtChar sep (cs ++ sep :: rest) = cs :: splitAtChar sep rest := by
  induction cs with
  | nil => simp [splitAtChar]
  | cons c r ih =>
    simp only [List.mem_cons, not_or] at absent
    rw [List.cons_append, splitAtChar, if_neg (Ne.symm absent.1), ih absent.2]

theorem splitAtChar_ne_nil (sep : Char) (cs : List Char) : splitAtChar sep cs ≠ [] := by
  cases cs with
  | nil => exact List.cons_ne_nil _ _
  | cons c r =>
    rw [splitAtChar]
    split
    · exact List.cons_ne_nil _ _
    · split <;> exact List.cons_ne_nil _ _

theorem intercalate_splitAtChar (sep : Char) (cs : List Char) :
    [sep].intercalate (splitAtChar sep cs) = cs := by
  induction cs with
  | nil => rfl
  | cons c r ih =>
    obtain ⟨p, ps, parts⟩ := List.exists_cons_of_ne_nil (splitAtChar_ne_nil sep r)
    rw [parts] at ih
    rw [splitAtChar, parts]
    split
    · rename_i same
      rw [List.intercalate_cons_cons, ih, same]
      rfl
    · cases ps with
      | nil => simpa using ih
      | cons q ps =>
        rw [List.intercalate_cons_cons] at ih ⊢
        rw [← ih]
        rfl

theorem intercalate_cons_of_ne_nil {sep : List Char} (some : ps ≠ []) (p : List Char) :
    sep.intercalate (p :: ps) = p ++ sep ++ sep.intercalate ps := by
  obtain ⟨q, ps, rfl⟩ := List.exists_cons_of_ne_nil some
  exact List.intercalate_cons_cons

theorem intercalate_concat {sep : List Char} (some : ps ≠ []) (p : List Char) :
    sep.intercalate (ps ++ [p]) = sep.intercalate ps ++ sep ++ p := by
  induction ps with
  | nil => exact absurd rfl some
  | cons q ps ih =>
    by_cases more : ps = []
    · simp [more, List.intercalate_cons_cons]
    · rw [List.cons_append, intercalate_cons_of_ne_nil (by simp), ih more,
        intercalate_cons_of_ne_nil more]
      simp only [List.append_assoc]

theorem of_mem_splitAtChar (part : p ∈ splitAtChar sep cs) (member : c ∈ p) : c ∈ cs ∧ c ≠ sep := by
  induction cs generalizing p with
  | nil =>
    obtain rfl := List.mem_singleton.mp part
    cases member
  | cons d r ih =>
    rw [splitAtChar] at part
    split at part
    · rcases List.mem_cons.mp part with rfl | later
      · cases member
      · exact (ih later member).imp_left (List.mem_cons_of_mem d)
    · rename_i other
      obtain ⟨q, ps, parts⟩ := List.exists_cons_of_ne_nil (splitAtChar_ne_nil sep r)
      rw [parts] at part ih
      rcases List.mem_cons.mp part with rfl | later
      · rcases List.mem_cons.mp member with rfl | inside
        · exact ⟨List.mem_cons_self, other⟩
        · exact (ih List.mem_cons_self inside).imp_left (List.mem_cons_of_mem d)
      · exact (ih (List.mem_cons_of_mem q later) member).imp_left (List.mem_cons_of_mem d)

/-- Joined pieces are found again, unless there are none. -/
theorem splitAtChar_intercalate (some : ps ≠ []) (apart : ∀ p ∈ ps, sep ∉ p) :
    splitAtChar sep ([sep].intercalate ps) = ps := by
  induction ps with
  | nil => exact absurd rfl some
  | cons p ps ih =>
    obtain ⟨first, others⟩ := List.forall_mem_cons.mp apart
    cases ps with
    | nil => simpa using splitAtChar_of_notMem first
    | cons q ps =>
      have rest := ih (List.cons_ne_nil q ps) others
      rw [List.intercalate_cons_cons, List.append_assoc, List.singleton_append,
        splitAtChar_append first, rest]

end Drydock.Text
