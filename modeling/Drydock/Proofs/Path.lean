import Drydock.Path
import Drydock.Proofs.Text.Pieces
import Mathlib.Data.List.Induction
import Mathlib.Data.List.Infix
import Mathlib.Data.List.TakeWhile
import Mathlib.Tactic.IntervalCases

set_option autoImplicit false
set_option relaxedAutoImplicit false

/-!
Paths and the texts that write them. Main statements: a path is read back from its text; a path that is
resolved climbs so many directories up and then goes down, and that is all that matters to where it leads
from a directory; and it leads below the directory exactly if it goes down again all that it has climbed.
-/

namespace Drydock.Path

attribute [ext] Path

open Text (splitAtChar)

variable {p q r : Path} {s : Nat} {names base : List String} {cs : List Char}

section Written

/-- A path that a text can write. -/
structure IsWritten (p : Path) : Prop where
  slashes_le : p.slashes ≤ 2
  name : ∀ n ∈ p.names, n ≠ "" ∧ n ≠ "." ∧ '/' ∉ n.toList

theorem rootSlashes_le (cs : List Char) : rootSlashes cs ≤ 2 := by
  unfold rootSlashes
  split <;> decide

theorem rootSlashes_append (few : s ≤ 2) (bare : cs.head? ≠ some '/') :
    rootSlashes (List.replicate s '/' ++ cs) = s := by
  have stop : cs.takeWhile (· = '/') = [] := by
    cases cs with
    | nil => rfl
    | cons c cs => exact List.takeWhile_cons_of_neg (by simpa using bare)
  have run : ((List.replicate s '/' ++ cs).takeWhile (· = '/')).length = s := by
    rw [List.takeWhile_append_of_pos (by simp), stop]
    simp
  unfold rootSlashes
  rw [run]
  interval_cases s <;> rfl

theorem isWritten_parse (text : String) : (parse text).IsWritten where
  slashes_le := rootSlashes_le _
  name := by
    intro n member
    obtain ⟨piece, kept, rfl⟩ := List.mem_map.mp member
    obtain ⟨cut, solid⟩ := List.mem_filter.mp kept
    have solid : piece ≠ [] ∧ piece ≠ ['.'] := by simpa using solid
    refine ⟨fun empty => solid.1 ?_, fun point => solid.2 ?_, fun slash => ?_⟩
    · simpa using congrArg String.toList empty
    · simpa using congrArg String.toList point
    · rw [String.toList_ofList] at slash
      exact (Text.of_mem_splitAtChar cut slash).2 rfl

theorem IsWritten.join (written : p.IsWritten) (written' : q.IsWritten) : (p.join q).IsWritten := by
  unfold Path.join
  split
  · exact ⟨written.slashes_le, fun n member =>
      (List.mem_append.mp member).elim (written.name n) (written'.name n)⟩
  · exact written'

theorem IsWritten.child (written : p.IsWritten) (text : String) : (p.child text).IsWritten :=
  written.join (isWritten_parse text)

theorem toList_text (other : p.slashes ≠ 0 ∨ p.names ≠ []) :
    p.text.toList = List.replicate p.slashes '/' ++ ['/'].intercalate (p.names.map String.toList) := by
  have other : ¬(p.slashes = 0 ∧ p.names = []) := by tauto
  rw [text, if_neg other, String.toList_append, String.toList_ofList, String.toList_intercalate]
  rfl

theorem splitAtChar_replicate_append (sep : Char) (k : Nat) (cs : List Char) :
    splitAtChar sep (List.replicate k sep ++ cs) = List.replicate k [] ++ splitAtChar sep cs := by
  induction k with
  | zero => rfl
  | succ k ih => simp [List.replicate_succ, splitAtChar, ih]

/-- A path is read back from its text. -/
theorem parse_text (written : p.IsWritten) : parse p.text = p := by
  by_cases other : p.slashes ≠ 0 ∨ p.names ≠ []
  swap
  · obtain ⟨slashes, names⟩ := p
    obtain ⟨rfl, rfl⟩ : slashes = 0 ∧ names = [] := by simpa using other
    rfl
  have free : ∀ cs ∈ p.names.map String.toList, '/' ∉ cs := by
    simpa using fun n member => (written.name n member).2.2
  have bare : (['/'].intercalate (p.names.map String.toList)).head? ≠ some '/' := by
    cases named : p.names with
    | nil => simp
    | cons n names =>
      have first := written.name n (named ▸ List.mem_cons_self)
      obtain ⟨c, cs, letters⟩ := List.exists_cons_of_ne_nil
        (mt String.toList_eq_nil_iff.mp first.1)
      have start : (['/'].intercalate ((n :: names).map String.toList)).head? = some c := by
        cases names <;> simp [letters, List.intercalate_cons_cons]
      rw [start]
      rintro same
      cases same
      exact first.2.2 (letters ▸ List.mem_cons_self)
  have pieces : (splitAtChar '/' (['/'].intercalate (p.names.map String.toList))).filter
      (fun n => n ≠ [] ∧ n ≠ ['.']) = p.names.map String.toList := by
    by_cases none : p.names = []
    · rw [none]
      rfl
    rw [Text.splitAtChar_intercalate (by simpa using none) free, List.filter_eq_self]
    intro cs member
    obtain ⟨n, named, rfl⟩ := List.mem_map.mp member
    have solid := written.name n named
    have point : n.toList ≠ ['.'] := fun same => solid.2.1 (String.toList_inj.mp same)
    simpa using ⟨solid.1, point⟩
  unfold parse
  rw [toList_text other, rootSlashes_append written.slashes_le bare, splitAtChar_replicate_append,
    List.filter_append, pieces]
  have emptied : (List.replicate p.slashes ([] : List Char)).filter
      (fun n => n ≠ [] ∧ n ≠ ['.']) = [] := by simp
  rw [emptied]
  simp

/-- Paths that texts can write are told apart by their texts. -/
theorem text_inj (written : p.IsWritten) (written' : q.IsWritten) : p.text = q.text ↔ p = q :=
  ⟨fun same => by rw [← parse_text written, same, parse_text written'], congrArg text⟩

/-- A text without slashes writes one name, unless it is empty or a point. -/
theorem parse_of_notMem {text : String} (free : '/' ∉ text.toList) :
    parse text = ⟨0, if text = "" ∨ text = "." then [] else [text]⟩ := by
  have bare : rootSlashes text.toList = 0 := by
    have stop : text.toList.head? ≠ some '/' := fun first => free (List.mem_of_head? first)
    simpa using rootSlashes_append (Nat.zero_le 2) stop
  have empty : text = "" ↔ text.toList = [] := String.toList_eq_nil_iff.symm
  have point : text = "." ↔ text.toList = ['.'] := String.toList_inj.symm
  rw [parse, bare, Text.splitAtChar_of_notMem free, List.filter_singleton]
  by_cases nameless : text = "" ∨ text = "."
  · rw [if_pos nameless]
    rcases nameless with rfl | rfl <;> rfl
  · rw [if_neg nameless]
    rw [empty, point, not_or] at nameless
    simp [nameless]

theorem join_left_cancel (relative : q.slashes = 0) (relative' : r.slashes = 0) :
    p.join q = p.join r ↔ q = r := by
  obtain ⟨slashes, names⟩ := q
  obtain ⟨slashes', names'⟩ := r
  cases relative
  cases relative'
  simp [join]

theorem join_assoc (p q r : Path) : (p.join q).join r = p.join (q.join r) := by
  by_cases relative : r.slashes = 0
  · by_cases relative' : q.slashes = 0 <;> simp [join, relative, relative', List.append_assoc]
  · simp [join, relative]

end Written

section Resolved

/-- The path with each `..` and the name before it taken away; at the root there is nothing to take. -/
def resolved (p : Path) : Path :=
  ⟨p.slashes, foldParents p.slashes p.names⟩

/-- A path that is made absolute is resolved. -/
theorem absolute_eq_resolved (directory p : Path) :
    absolute directory p = (directory.join p).resolved := rfl

/-- A path goes on from another by at least one name. -/
def IsBelow (p q : Path) : Prop :=
  p.slashes = q.slashes ∧ ∃ rest, rest ≠ [] ∧ p.names = q.names ++ rest

theorem isBelow_iff : p.IsBelow q ↔
    p.slashes = q.slashes ∧ q.names <+: p.names ∧ q.names.length < p.names.length := by
  refine and_congr_right fun _ => ⟨?_, ?_⟩
  · rintro ⟨rest, some, names⟩
    refine ⟨⟨rest, names.symm⟩, ?_⟩
    rw [names, List.length_append]
    exact Nat.lt_add_of_pos_right (List.length_pos_iff.mpr some)
  · rintro ⟨⟨rest, names⟩, longer⟩
    refine ⟨rest, ?_, names.symm⟩
    rintro rfl
    simp [← names] at longer

instance (p q : Path) : Decidable (p.IsBelow q) :=
  decidable_of_iff _ isBelow_iff.symm

/-- How many directories names climb up before they go down. -/
def climb (names : List String) : Nat :=
  ((foldParents 0 names).takeWhile (· = "..")).length

/-- The names that names go down after they have climbed up. -/
def descent (names : List String) : List String :=
  (foldParents 0 names).dropWhile (· = "..")

theorem foldParents_append_singleton (s : Nat) (names : List String) (n : String) :
    foldParents s (names ++ [n]) =
      if n = ".." ∧ (s ≠ 0 ∨ foldParents s names ≠ []) ∧
          (foldParents s names).getLast? ≠ some ".." then (foldParents s names).dropLast
      else foldParents s names ++ [n] := by
  unfold foldParents
  rw [List.foldl_append]
  rfl

theorem foldParents_of_notMem (level : ".." ∉ names) : foldParents s names = names := by
  induction names using List.reverseRecOn with
  | nil => rfl
  | append_singleton names n ih =>
    simp only [List.mem_append, List.mem_singleton, not_or] at level
    rw [foldParents_append_singleton, ih level.1, if_neg fun up => level.2 up.1.symm]

theorem notMem_foldParents (rooted : s ≠ 0) (names : List String) : ".." ∉ foldParents s names := by
  induction names using List.reverseRecOn with
  | nil => exact List.not_mem_nil
  | append_singleton names n ih =>
    rw [foldParents_append_singleton]
    split
    · exact fun member => ih (List.mem_of_mem_dropLast member)
    · rename_i kept
      have last : (foldParents s names).getLast? ≠ some ".." := fun last =>
        ih (List.mem_of_getLast? last)
      have other : n ≠ ".." := fun up => kept ⟨up, .inl rooted, last⟩
      simp only [List.mem_append, List.mem_singleton, not_or]
      exact ⟨ih, other.symm⟩

/-- Names climb up so many directories and then go down, and where they do so from a directory nothing
else matters. -/
theorem exists_foldParents (names : List String) :
    ∃ k rest, ".." ∉ rest ∧ foldParents 0 names = List.replicate k ".." ++ rest ∧
      ∀ s base, s ≠ 0 → foldParents s (base ++ names) =
        (foldParents s base).take ((foldParents s base).length - k) ++ rest := by
  -- A last name goes down; `..` takes back the last that went down, or else climbs one directory more.
  induction names using List.reverseRecOn with
  | nil => exact ⟨0, [], List.not_mem_nil, rfl, by simp⟩
  | append_singleton names n ih =>
    obtain ⟨k, rest, level, own, from_⟩ := ih
    by_cases up : n = ".."
    · subst up
      rcases rest.eq_nil_or_concat' with rfl | ⟨rest, m, rfl⟩
      · refine ⟨k + 1, [], level, ?_, fun s base rooted => ?_⟩
        · rw [foldParents_append_singleton, own, List.append_nil, List.append_nil, if_neg,
            List.replicate_succ']
          rintro ⟨-, some, other⟩
          cases k with
          | zero => simp at some
          | succ k => simp [List.replicate_succ'] at other
        · have solid : (foldParents s (base ++ names)).getLast? ≠ some ".." := fun last =>
            notMem_foldParents rooted _ (List.mem_of_getLast? last)
          rw [← List.append_assoc, foldParents_append_singleton, if_pos ⟨rfl, .inl rooted, solid⟩,
            from_ s base rooted, List.append_nil, List.append_nil, List.dropLast_eq_take,
            List.take_take, List.length_take]
          congr 1
          omega
      · have other : m ≠ ".." := fun same => level (by simp [same])
        refine ⟨k, rest, fun member => level (List.mem_append_left _ member), ?_, fun s base rooted => ?_⟩
        · rw [foldParents_append_singleton, own, if_pos, ← List.append_assoc, List.dropLast_concat]
          simpa using other
        · rw [← List.append_assoc, foldParents_append_singleton, from_ s base rooted, if_pos,
            ← List.append_assoc, List.dropLast_concat]
          simpa [rooted] using other
    · refine ⟨k, rest ++ [n], ?_, ?_, fun s base rooted => ?_⟩
      · simpa using ⟨level, Ne.symm up⟩
      · rw [foldParents_append_singleton, if_neg fun taken => up taken.1, own, List.append_assoc]
      · rw [← List.append_assoc, foldParents_append_singleton, if_neg fun taken => up taken.1,
          from_ s base rooted, List.append_assoc]

theorem foldParents_zero (names : List String) :
    ".." ∉ descent names ∧
      foldParents 0 names = List.replicate (climb names) ".." ++ descent names ∧
      ∀ s base, s ≠ 0 → foldParents s (base ++ names) =
        (foldParents s base).take ((foldParents s base).length - climb names) ++ descent names := by
  obtain ⟨k, rest, level, own, from_⟩ := exists_foldParents names
  have stop : rest.takeWhile (· = "..") = [] ∧ rest.dropWhile (· = "..") = rest := by
    cases rest with
    | nil => exact ⟨rfl, rfl⟩
    | cons n rest =>
      have other : ¬n = ".." := fun same => level (same ▸ List.mem_cons_self)
      simp [other]
  have climbed : climb names = k := by
    rw [climb, own, List.takeWhile_append_of_pos (by simp), stop.1]
    simp
  have descended : descent names = rest := by
    rw [descent, own, List.dropWhile_append_of_pos (by simp), stop.2]
  rw [climbed, descended]
  exact ⟨level, own, from_⟩

theorem resolved_join (rooted : p.slashes ≠ 0) (relative : q.slashes = 0) :
    (p.join q).resolved = ⟨p.slashes, p.resolved.names.take (p.resolved.names.length - climb q.names) ++
      descent q.names⟩ := by
  rw [join, if_pos relative]
  exact congrArg (Path.mk p.slashes) ((foldParents_zero q.names).2.2 _ _ rooted)

/-- Names that climb out of a directory go down again all that they have climbed, and further. -/
def GoesBelow (directory names : List String) : Prop :=
  ∃ rest, rest ≠ [] ∧ descent names = directory.drop (directory.length - climb names) ++ rest

private theorem take_append_eq_iff {up down rest : List String} (i : Nat) :
    up.take i ++ down = up ++ rest ↔ down = up.drop i ++ rest := by
  have split : up ++ rest = up.take i ++ (up.drop i ++ rest) := by
    rw [← List.append_assoc, List.take_append_drop]
  rw [split, List.append_cancel_left_eq]

/-- From a directory that is not relative, a relative path leads below it exactly if it goes down first
through all the directories that it has climbed out of. -/
theorem isBelow_join_iff (rooted : p.slashes ≠ 0) (relative : q.slashes = 0) :
    (p.join q).resolved.IsBelow p.resolved ↔ GoesBelow p.resolved.names q.names := by
  rw [resolved_join rooted relative]
  refine (and_iff_right rfl).trans (exists_congr fun rest => and_congr_right fun _ => ?_)
  exact take_append_eq_iff _

/-- Names without `..` do not climb. -/
theorem resolved_join_of_notMem (rooted : p.slashes ≠ 0) (relative : q.slashes = 0)
    (level : ".." ∉ q.names) : (p.join q).resolved = ⟨p.slashes, p.resolved.names ++ q.names⟩ := by
  have kept : foldParents 0 q.names = q.names := foldParents_of_notMem level
  have flat : climb q.names = 0 := by
    rw [climb, kept, List.length_eq_zero_iff, List.takeWhile_eq_nil_iff]
    exact fun some up => level (of_decide_eq_true up ▸ List.get_mem _ _)
  have whole : descent q.names = q.names := by
    have parts := (foldParents_zero q.names).2.1
    rw [flat, kept] at parts
    exact parts.symm
  rw [resolved_join rooted relative, flat, whole, Nat.sub_zero, List.take_length]

theorem isBelow_join (rooted : p.slashes ≠ 0) (relative : q.slashes = 0) (level : ".." ∉ q.names)
    (some : q.names ≠ []) : (p.join q).resolved.IsBelow p.resolved := by
  rw [resolved_join_of_notMem rooted relative level]
  exact ⟨rfl, q.names, some, rfl⟩

theorem resolved_join_left_cancel (rooted : p.slashes ≠ 0) (relative : q.slashes = 0)
    (relative' : r.slashes = 0) (level : ".." ∉ q.names) (level' : ".." ∉ r.names) :
    (p.join q).resolved = (p.join r).resolved ↔ q = r := by
  refine ⟨fun same => ?_, congrArg fun q => (p.join q).resolved⟩
  rw [resolved_join_of_notMem rooted relative level,
    resolved_join_of_notMem rooted relative' level', Path.mk.injEq, List.append_cancel_left_eq] at same
  exact Path.ext (relative.trans relative'.symm) same.2

end Resolved

end Drydock.Path
