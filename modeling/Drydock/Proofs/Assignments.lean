import Drydock.Assignments
import Drydock.Proofs.Bindings
import Drydock.Proofs.Text.Lines
import Drydock.Proofs.Text.Search

set_option autoImplicit false
set_option relaxedAutoImplicit false

/-!
Assignments in files. Main statements: what is read from any text is in a normal form, and every set of
assignments in normal form is read back as it is when it is written out, in the same order; and a text
that is written after another on a new line adds its assignments to those of the other.
-/

namespace Drydock.Assignments

open Text (cutAt? isLineBoundary splitLines trim)

/-- A text that can stand within a line. -/
structure FitsLine (cs : List Char) : Prop where
  nonzero : '\x00' ∉ cs
  inner : ∀ c ∈ cs, isLineBoundary c = false

/-- A text that fits into a line and is trimmed. -/
structure IsSettled (cs : List Char) : Prop extends FitsLine cs where
  trimmed : trim cs = cs

/-- An assignment as it is read: its name is not empty and has no equals sign, and neither its name
nor its value is changed by a line that it stands on. -/
structure IsNormal (e : String × String) : Prop where
  named : e.1 ≠ ""
  free : '=' ∉ e.1.toList
  name : IsSettled e.1.toList
  value : IsSettled e.2.toList

/-- The line that writes an assignment. -/
def written (e : String × String) : List Char :=
  e.1.toList ++ '=' :: e.2.toList

variable {e : String × String} {cs part : List Char} {ls : List (List Char)} {text : String}

theorem FitsLine.mono (fits : FitsLine cs) (within : part ⊆ cs) : FitsLine part where
  nonzero member := fits.nonzero (within member)
  inner c member := fits.inner c (within member)

theorem FitsLine.isSettled_trim (fits : FitsLine cs) : IsSettled (trim cs) where
  toFitsLine := fits.mono (Text.trim_infix cs).subset
  trimmed := Text.trim_trim cs

theorem fitsLine_of_mem_lines (line : cs ∈ lines text) : FitsLine cs where
  nonzero member := by simpa using (Text.mem_of_mem_splitLines line member).1
  inner _ member := (Text.mem_of_mem_splitLines line member).2

section Reading

theorem isNormal_of_ofLine? (fits : FitsLine cs) (read : ofLine? cs = some e) : IsNormal e := by
  unfold ofLine? at read
  split at read
  · rename_i name value cut
    split at read
    · cases read
    rename_i named
    cases read
    obtain ⟨whole, free⟩ := Text.cutAt?_singleton_eq_some_iff.mp cut
    have parts : name ++ '=' :: value ⊆ cs := whole ▸ (Text.trim_infix cs).subset
    obtain ⟨ofName, ofRest⟩ := List.append_subset.mp parts
    have ofValue : value ⊆ cs := List.Subset.trans (List.subset_cons_self '=' value) ofRest
    refine ⟨by simpa using named, ?_, ?_, ?_⟩
    · simpa using fun member => free ((Text.trim_infix name).subset member)
    · simpa using (fits.mono ofName).isSettled_trim
    · simpa using (fits.mono ofValue).isSettled_trim
  · cases read

theorem isNormal_of_mem_parse (member : e ∈ (parse text).entries) : IsNormal e := by
  obtain ⟨cs, line, read⟩ := List.mem_filterMap.mp (Bindings.mem_of_mem_entries_ofList member)
  exact isNormal_of_ofLine? (fitsLine_of_mem_lines line) read

end Reading

section Writing

theorem fitsLine_written (normal : IsNormal e) : FitsLine (written e) where
  nonzero := by simp [written, normal.name.nonzero, normal.value.nonzero]
  inner c member := by
    rcases List.mem_append.mp member with name | rest
    · exact normal.name.inner c name
    · rcases List.mem_cons.mp rest with rfl | value
      · rfl
      · exact normal.value.inner c value

theorem trim_written (normal : IsNormal e) : trim (written e) = written e := by
  -- The line begins as the name does, and it ends as the value does or with the equals sign.
  obtain ⟨nameFirst, -⟩ := Text.trim_eq_self_iff.mp normal.name.trimmed
  obtain ⟨-, valueLast⟩ := Text.trim_eq_self_iff.mp normal.value.trimmed
  have named : e.1.toList ≠ [] := by simpa using normal.named
  refine Text.trim_eq_self_iff.mpr ⟨?_, ?_⟩
  · rwa [written, List.head?_append_of_ne_nil _ named]
  · rw [written, List.getLast?_append_of_ne_nil _ (List.cons_ne_nil _ _), List.getLast?_cons]
    cases last : e.2.toList.getLast? with
    | none =>
      rintro _ ⟨⟩
      rfl
    | some c => simpa using valueLast c last

theorem ofLine?_written (normal : IsNormal e) : ofLine? (written e) = some e := by
  have cut : cutAt? ['='] (trim (written e)) = some (e.1.toList, e.2.toList) := by
    rw [trim_written normal]
    exact Text.cutAt?_append_cons normal.free
  have named : e.1.toList ≠ [] := by simpa using normal.named
  unfold ofLine?
  rw [cut]
  simp [normal.name.trimmed, normal.value.trimmed, named]

theorem lines_intercalate (fits : ∀ l ∈ ls, FitsLine l) (some : ∀ l ∈ ls, l ≠ []) :
    lines (String.ofList (['\n'].intercalate ls)) = ls := by
  have nonzero : ∀ c ∈ ['\n'].intercalate ls, decide (c ≠ '\x00') = true := by
    intro c member
    rw [decide_eq_true_eq]
    rintro rfl
    rcases Text.mem_of_mem_intercalate member with between | ⟨l, line, found⟩
    · simp at between
    · exact (fits l line).nonzero found
  rw [lines, String.toList_ofList, List.filter_eq_self.mpr nonzero]
  exact Text.splitLines_intercalate (fun l line => (fits l line).inner) some

theorem render_eq_intercalate (b : Bindings String) :
    render b = String.ofList (['\n'].intercalate (b.entries.map written)) := by
  apply String.toList_inj.mp
  rw [String.toList_ofList, render, String.toList_intercalate, List.map_map]
  congr 1
  refine List.map_congr_left fun e _ => ?_
  simp [written]

theorem parse_render {b : Bindings String} (normal : ∀ e ∈ b.entries, IsNormal e) :
    parse (render b) = b := by
  have found : lines (render b) = b.entries.map written := by
    rw [render_eq_intercalate]
    refine lines_intercalate (List.forall_mem_map.mpr fun e member => ?_) ?_
    · exact fitsLine_written (normal e member)
    · exact List.forall_mem_map.mpr fun e _ => by simp [written]
  have read : (b.entries.map written).filterMap ofLine? = b.entries := by
    rw [List.filterMap_map, List.filterMap_congr (g := some)]
    · exact List.filterMap_some
    · exact fun e member => ofLine?_written (normal e member)
  ext1
  rw [parse, found, read, Bindings.entries_ofList b.nodup]

/-- What is read from a text, whatever it is, has only assignments in normal form; written out and read
again, assignments in normal form are the same in the same order; and so are those that were read. -/
theorem parse_normalises :
    (∀ text, ∀ e ∈ (parse text).entries, IsNormal e) ∧
    (∀ b : Bindings String, (∀ e ∈ b.entries, IsNormal e) → parse (render b) = b) ∧
    ∀ text, parse (render (parse text)) = parse text :=
  ⟨fun _ _ => isNormal_of_mem_parse, fun _ => parse_render,
    fun _ => parse_render fun _ => isNormal_of_mem_parse⟩

example : (parse " b = 1\r\n\x00b\x00=\u20282 = 3 \n=\n a==\x0bx").entries =
    [("b", ""), ("2", "3"), ("a", "=")] := by
  decide +kernel

end Writing

section Appending

/-- At the place where two texts are joined there is no more than an empty line, which assigns
nothing. -/
theorem filterMap_lines_append (a b : String) :
    (lines (a ++ "\n" ++ b)).filterMap ofLine? =
      (lines a).filterMap ofLine? ++ (lines b).filterMap ofLine? := by
  obtain ⟨gap, small, joined⟩ := Text.exists_splitLines_append
    (a.toList.filter (· ≠ '\x00')) (b.toList.filter (· ≠ '\x00'))
  have blank : gap.filterMap ofLine? = [] := by
    rcases small with rfl | rfl <;> rfl
  have whole : lines (a ++ "\n" ++ b) = lines a ++ gap ++ lines b := by
    rw [lines, lines, lines, ← joined]
    simp
  rw [whole, List.filterMap_append, List.filterMap_append, blank, List.append_nil]

/-- A text that is written after another on a new line adds its assignments: its values count, and a
name keeps the place where it is first. -/
theorem parse_append (a b : String) :
    parse (a ++ "\n" ++ b) = (parse a).update (parse b) ∧
    (parse (a ++ "\n" ++ b)).keys =
      (parse a).keys ++ (parse b).keys.filter (· ∉ (parse a).keys) ∧
    ∀ key, (parse (a ++ "\n" ++ b)).get? key = ((parse b).get? key).or ((parse a).get? key) := by
  have merged : parse (a ++ "\n" ++ b) = (parse a).update (parse b) := by
    rw [parse, filterMap_lines_append, Bindings.ofList_append]
    rfl
  rw [merged]
  exact ⟨rfl, Bindings.keys_update _ _, Bindings.get?_update _ _⟩

end Appending

end Drydock.Assignments
