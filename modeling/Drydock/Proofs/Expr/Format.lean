import Drydock.Expr.Builtin
import Drydock.Proofs.Text.Search
import Drydock.Proofs.Traversal
import Mathlib

set_option autoImplicit false
set_option relaxedAutoImplicit false

/-!
What `format` makes of a format and its arguments. A format is cut into characters and marks in one
scan; the marks of the arguments are filled in turn, though, and what is filled in is scanned again.
Main statements: the value is that of one scan as long as no characters come to spell a mark, and if no
argument holds an opening brace, only then; an argument that reads like a later mark is replaced.
-/

namespace Drydock.Expr.Format

open Text (isAsciiDigit replaceAll)

/-- A part of a format: a character, or the mark that stands for an argument. -/
inductive Part
  | char (c : Char)
  | mark (i : Nat)
  deriving DecidableEq

namespace Part

/-- A part as it is written. -/
def written : Part → List Char
  | char c => [c]
  | mark i => placeholder i

/-- A part with a text in the place of a mark. -/
def fill (texts : Nat → List Char) : Part → List Char
  | char c => [c]
  | mark i => texts i

/-- What a part makes when the marks below a number are filled: characters, for such a mark. -/
def settle (texts : Nat → List Char) (k : Nat) : Part → List Part
  | char c => [char c]
  | mark i => if i < k then (texts i).map char else [mark i]

/-- What a part makes when one mark counts: characters, for every other mark. -/
def only (k : Nat) (p : Part) : List Part :=
  if p = mark k then [p] else p.written.map char

end Part

/-- The parts of a text in one scan from left to right, for the marks that count. -/
inductive Cut (counts : Nat → Prop) : List Char → List Part → Prop
  | nil : Cut counts [] []
  | mark {i : Nat} {rest : List Char} {ps : List Part} (counted : counts i)
      (next : Cut counts rest ps) : Cut counts (placeholder i ++ rest) (.mark i :: ps)
  | char {c : Char} {rest : List Char} {ps : List Part}
      (plain : ∀ i, counts i → ¬placeholder i <+: c :: rest) (next : Cut counts rest ps) :
      Cut counts (c :: rest) (.char c :: ps)

section Placeholders

variable {i j : Nat} {c : Char} {rest rest' : List Char}

/-- The numeral between the braces of a mark. -/
def numeral (i : Nat) : List Char :=
  (toString i).toList

theorem placeholder_append (i : Nat) (rest : List Char) :
    placeholder i ++ rest = '\x7b' :: (numeral i ++ '\x7d' :: rest) := by
  simp [placeholder, numeral]

theorem isAsciiDigit_of_mem_numeral (member : c ∈ numeral i) : isAsciiDigit c = true := by
  rw [numeral, Nat.toString_eq_repr, Nat.toList_repr] at member
  have digit := Nat.isDigit_of_mem_toDigits (by decide) (by decide) member
  exact digit

theorem openBrace_notMem_numeral (i : Nat) : '\x7b' ∉ numeral i := by
  intro member
  cases isAsciiDigit_of_mem_numeral member

theorem numeral_injective (same : numeral i = numeral j) : i = j :=
  Nat.repr_inj.mp (String.toList_inj.mp same)

theorem closeBrace_notMem_numeral (i : Nat) : '\x7d' ∉ numeral i := by
  intro member
  cases isAsciiDigit_of_mem_numeral member

/-- Two marks that begin at one place are the same. -/
theorem placeholder_unique (same : placeholder i ++ rest = placeholder j ++ rest') :
    i = j ∧ rest = rest' := by
  rw [placeholder_append, placeholder_append] at same
  obtain ⟨-, inner⟩ := List.cons.inj same
  rcases append_eq_append_cons inner with ⟨more, longer, -⟩ | ⟨more, longer, after⟩
  · have brace : '\x7d' ∈ numeral i := by simp [longer]
    exact absurd brace (closeBrace_notMem_numeral i)
  · cases more with
    | nil =>
      rw [List.append_nil] at longer
      exact ⟨(numeral_injective longer).symm, (List.cons.inj after).2⟩
    | cons d more =>
      obtain ⟨rfl, -⟩ := List.cons.inj after
      have brace : '\x7d' ∈ numeral j := by simp [longer]
      exact absurd brace (closeBrace_notMem_numeral j)

end Placeholders

section Cuts

variable {counts : Nat → Prop} {cs : List Char} {ps qs : List Part} {k : Nat}

theorem exists_cut (counts : Nat → Prop) (cs : List Char) : ∃ ps, Cut counts cs ps := by
  induction size : cs.length using Nat.strong_induction_on generalizing cs with
  | h n ih =>
    subst size
    by_cases starts : ∃ i, counts i ∧ placeholder i <+: cs
    · obtain ⟨i, counted, rest, rfl⟩ := starts
      have shorter : rest.length < (placeholder i ++ rest).length := by
        rw [placeholder_append]
        simp only [List.length_cons, List.length_append]
        omega
      obtain ⟨ps, next⟩ := ih rest.length shorter rest rfl
      exact ⟨_, .mark counted next⟩
    · cases cs with
      | nil => exact ⟨_, .nil⟩
      | cons c rest =>
        obtain ⟨ps, next⟩ := ih rest.length (Nat.lt_succ_self _) rest rfl
        exact ⟨_, .char (fun i counted here => starts ⟨i, counted, here⟩) next⟩

theorem Cut.unique (cut : Cut counts cs ps) (also : Cut counts cs qs) : ps = qs := by
  induction cut generalizing qs with
  | nil =>
    generalize whole : [] = cs at also
    cases also with
    | nil => rfl
    | mark => simp [placeholder] at whole
    | char => cases whole
  | @mark i rest ps counted next ih =>
    generalize whole : placeholder i ++ rest = cs at also
    cases also with
    | nil => simp [placeholder] at whole
    | mark _ next' =>
      obtain ⟨rfl, rfl⟩ := placeholder_unique whole
      rw [ih next']
    | char plain _ => exact absurd ⟨rest, whole⟩ (plain i counted)
  | @char c rest ps plain next ih =>
    generalize whole : c :: rest = cs at also
    cases also with
    | nil => cases whole
    | @mark i rest' _ counted _ => exact absurd ⟨rest', whole.symm⟩ (plain i counted)
    | char _ next' =>
      obtain ⟨rfl, rfl⟩ := List.cons.inj whole
      rw [ih next']

theorem Cut.flatMap_written (cut : Cut counts cs ps) : ps.flatMap Part.written = cs := by
  induction cut with
  | nil => rfl
  | mark _ _ ih => rw [List.flatMap_cons, ih, Part.written]
  | char _ _ ih => rw [List.flatMap_cons, ih, Part.written, List.singleton_append]

theorem Cut.counted {i : Nat} (cut : Cut counts cs ps) (member : .mark i ∈ ps) : counts i := by
  induction cut with
  | nil => cases member
  | mark here _ ih =>
    rcases List.mem_cons.mp member with same | later
    · cases same
      exact here
    · exact ih later
  | char _ _ ih =>
    rcases List.mem_cons.mp member with same | later
    · cases same
    · exact ih later

/-- What a replacement does: of the text cut for its mark, it fills in every mark. -/
theorem Cut.replaceAll_eq {texts : Nat → List Char} (cut : Cut (· = k) cs ps) :
    replaceAll (placeholder k) (texts k) cs = ps.flatMap (Part.fill texts) := by
  induction cut with
  | nil => rfl
  | mark counted _ ih =>
    subst counted
    rw [List.flatMap_cons, ← ih]
    exact Text.replaceAll_append ..
  | char plain _ ih =>
    rw [List.flatMap_cons, ← ih, Text.replaceAll_cons (plain k rfl)]
    rfl

end Cuts

section Stages

/-- A text with the marks from one number up to another filled in turn, each in one scan over all that
stands there by then. -/
inductive FilledInTurn (texts : Nat → List Char) (stop : Nat) :
    Nat → List Char → List Char → Prop
  | done {cs : List Char} : FilledInTurn texts stop stop cs cs
  | next {k : Nat} {cs out : List Char} {ps : List Part} (more : k < stop) (cut : Cut (· = k) cs ps)
      (rest : FilledInTurn texts stop (k + 1) (ps.flatMap (Part.fill texts)) out) :
      FilledInTurn texts stop k cs out

/-- The text of an argument. -/
def textAt (args : List Value) (i : Nat) : List Char :=
  ((args[i]?.map asText).getD "").toList

variable {args : List Value} {k : Nat} {texts : Nat → List Char}

theorem filledInTurn_fillPlaceholders (cs : List Char)
    (given : ∀ i, texts (k + i) = textAt args i) :
    FilledInTurn texts (k + args.length) k cs (fillPlaceholders k cs args) := by
  induction args generalizing k cs with
  | nil => exact .done
  | cons v args ih =>
    obtain ⟨ps, cut⟩ := exists_cut (· = k) cs
    have own : texts k = (asText v).toList := given 0
    have stop : k + (v :: args).length = k + 1 + args.length := by
      rw [List.length_cons]
      omega
    have later : ∀ i, texts (k + 1 + i) = textAt args i := by
      intro i
      rw [Nat.add_assoc, Nat.add_comm 1, given]
      rfl
    refine .next (by simp) cut ?_
    rw [stop, fillPlaceholders, ← own, cut.replaceAll_eq]
    exact ih _ later

end Stages

section Reading

variable {counts : Nat → Prop} {cs ds rest : List Char} {ps qs rs : List Part} {k : Nat}

theorem not_starts_of_ne {c : Char} (other : c ≠ '\x7b') : ¬placeholder k <+: c :: rest := by
  rintro ⟨more, same⟩
  rw [placeholder_append] at same
  exact other (List.cons.inj same).1.symm

theorem flatMap_map_char {f : Part → List Char} (keeps : ∀ c, f (.char c) = [c]) (cs : List Char) :
    (cs.map Part.char).flatMap f = cs := by
  simp [List.flatMap_map, keeps]

/-- Digits and a closing brace are read as characters only. -/
theorem exists_of_written (digits : ∀ c ∈ ds, isAsciiDigit c = true)
    (read : rs.flatMap Part.written = ds ++ '\x7d' :: rest) :
    ∃ others, rs = ds.map .char ++ .char '\x7d' :: others ∧ others.flatMap Part.written = rest := by
  induction rs generalizing ds with
  | nil => simp at read
  | cons p rs ih =>
    cases p with
    | mark i =>
      rw [List.flatMap_cons, Part.written, placeholder_append] at read
      cases ds with
      | nil => cases (List.cons.inj read).1
      | cons d ds =>
        obtain ⟨rfl, -⟩ := List.cons.inj read
        cases digits _ List.mem_cons_self
    | char c =>
      cases ds with
      | nil =>
        obtain ⟨rfl, inner⟩ := List.cons.inj read
        exact ⟨rs, rfl, inner⟩
      | cons d ds =>
        obtain ⟨same, inner⟩ := List.cons.inj read
        subst same
        obtain ⟨others, shape, after⟩ :=
          ih (fun d member => digits d (List.mem_cons_of_mem c member)) inner
        exact ⟨others, by rw [shape]; rfl, after⟩

theorem spelled_of_starts {c : Char} (here : placeholder k <+: c :: ps.flatMap Part.written) :
    (placeholder k).map Part.char <+: .char c :: ps := by
  obtain ⟨more, same⟩ := here
  rw [placeholder_append] at same
  obtain ⟨rfl, inner⟩ := List.cons.inj same
  obtain ⟨others, rfl, -⟩ := exists_of_written (fun _ => isAsciiDigit_of_mem_numeral) inner.symm
  exact ⟨others, by simp [placeholder, numeral]⟩

/-- A cut leaves no mark that counts in characters. -/
theorem Cut.not_spelled (cut : Cut counts cs ps) (counted : counts k) :
    ¬(placeholder k).map Part.char <:+: ps := by
  induction cut with
  | nil => simp [placeholder]
  | mark _ _ ih =>
    intro spelled
    rcases List.infix_cons_iff.mp spelled with ⟨more, same⟩ | later
    · cases (List.cons.inj same).1
    · exact ih later
  | @char c rest ps plain next ih =>
    intro spelled
    rcases List.infix_cons_iff.mp spelled with ⟨more, same⟩ | later
    · refine plain k counted ⟨more.flatMap Part.written, ?_⟩
      have written := congrArg (List.flatMap Part.written) same
      rw [List.flatMap_append, flatMap_map_char fun _ => rfl, List.flatMap_cons,
        next.flatMap_written] at written
      exact written
    · exact ih later

theorem Cut.append_plain (plain : '\x7b' ∉ ds) (next : Cut counts cs ps) :
    Cut counts (ds ++ cs) (ds.map .char ++ ps) := by
  induction ds with
  | nil => exact next
  | cons d ds ih =>
    have first : d ≠ '\x7b' := fun same => plain (same ▸ List.mem_cons_self)
    have others : '\x7b' ∉ ds := fun member => plain (List.mem_cons_of_mem d member)
    exact .char (fun _ _ => not_starts_of_ne first) (ih others)

/-- Parts whose characters spell a mark nowhere are the cut for that mark, with all other marks as
characters. -/
theorem cut_only (unspelled : ¬(placeholder k).map Part.char <:+: ps) :
    Cut (· = k) (ps.flatMap Part.written) (ps.flatMap (Part.only k)) := by
  induction ps with
  | nil => exact .nil
  | cons p ps ih =>
    have next := ih fun later => unspelled (later.trans (List.suffix_cons p ps).isInfix)
    rw [List.flatMap_cons, List.flatMap_cons, Part.only]
    cases p with
    | char c =>
      have plain : ¬placeholder k <+: c :: ps.flatMap Part.written :=
        fun here => unspelled (spelled_of_starts here).isInfix
      exact .char (fun i same => same ▸ plain) next
    | mark i =>
      split_ifs with same
      · cases same
        exact .mark rfl next
      · have solid : '\x7b' ∉ numeral i ++ ['\x7d'] := by
          intro member
          rcases List.mem_append.mp member with digit | close
          · exact openBrace_notMem_numeral i digit
          · exact absurd close (by decide)
        have apart : ¬placeholder k <+: placeholder i ++ ps.flatMap Part.written := by
          rintro ⟨more, here⟩
          exact same (congrArg Part.mark (placeholder_unique here).1.symm)
        exact .char (fun j here => here ▸ apart) (next.append_plain solid)

end Reading

section Harmless

variable {texts : Nat → List Char} {n k : Nat} {cs out : List Char} {ps qs rs : List Part}
  {counts : Nat → Prop}

/-- In no turn do characters, of the format or filled in before, spell the mark that is next. -/
def Harmless (texts : Nat → List Char) (n : Nat) (ps : List Part) : Prop :=
  ∀ k < n, ¬(placeholder k).map Part.char <:+: ps.flatMap (Part.settle texts k)

/-- Filling in one mark after those below it. -/
theorem flatMap_only_settle (ps : List Part) :
    ((ps.flatMap (Part.settle texts k)).flatMap (Part.only k)).flatMap (Part.fill texts) =
      (ps.flatMap (Part.settle texts (k + 1))).flatMap Part.written := by
  simp only [List.flatMap_assoc]
  refine List.flatMap_congr fun p _ => ?_
  cases p with
  | char c => simp [Part.settle, Part.only, Part.written, Part.fill]
  | mark i =>
    rcases Nat.lt_trichotomy i k with early | rfl | late
    · have earlier : i < k + 1 := Nat.lt_succ_of_lt early
      simp [Part.settle, early, earlier, Part.only, Part.written, Part.fill, List.flatMap_map]
    · simp [Part.settle, Part.only, Part.fill, Part.written, List.flatMap_map]
    · have later : ¬i < k + 1 := by omega
      have chars := flatMap_map_char (f := Part.fill texts) (fun _ => rfl) (placeholder i)
      simp [Part.settle, late.ne', late.not_gt, later, Part.only, Part.written, chars]

theorem flatMap_settle_of_below (below : ∀ i, .mark i ∈ ps → i < k) :
    (ps.flatMap (Part.settle texts k)).flatMap Part.written = ps.flatMap (Part.fill texts) := by
  rw [List.flatMap_assoc]
  refine List.flatMap_congr fun p member => ?_
  cases p with
  | char c => rfl
  | mark i => rw [Part.settle, if_pos (below i member), flatMap_map_char fun _ => rfl, Part.fill]

theorem FilledInTurn.eq_fill (filled : FilledInTurn texts n k cs out)
    (below : ∀ i, .mark i ∈ ps → i < n) (harmless : Harmless texts n ps)
    (read : (ps.flatMap (Part.settle texts k)).flatMap Part.written = cs) :
    out = ps.flatMap (Part.fill texts) := by
  induction filled with
  | done => rw [← read, flatMap_settle_of_below below]
  | @next k cs _ _ more cut _ ih =>
    apply ih
    subst read
    rw [cut.unique (cut_only (harmless k more)), flatMap_only_settle]

theorem char_of_settle {c : Char} {p : Part} (made : .char c ∈ p.settle texts k) :
    p = .char c ∨ ∃ i < k, p = .mark i ∧ c ∈ texts i := by
  cases p with
  | char d => exact .inl (List.mem_singleton.mp made).symm
  | mark i =>
    rw [Part.settle] at made
    split_ifs at made with early
    · obtain ⟨d, member, same⟩ := List.mem_map.mp made
      cases same
      exact .inr ⟨i, early, rfl, member⟩
    · cases List.mem_singleton.mp made

/-- Nothing can go wrong where no opening brace stands but in the marks of a format and in its last
argument. -/
theorem harmless_of_noBrace (noBrace : ∀ i, i + 1 < n → '\x7b' ∉ texts i)
    (plain : .char '\x7b' ∉ ps) : Harmless texts n ps := by
  intro k few spelled
  have brace : Part.char '\x7b' ∈ (placeholder k).map Part.char := List.mem_cons_self
  obtain ⟨p, inside, made⟩ := List.mem_flatMap.mp (spelled.subset brace)
  rcases char_of_settle made with rfl | ⟨i, early, -, member⟩
  · exact plain inside
  · exact noBrace i (by omega) member

end Harmless

section Braces

variable {texts : Nat → List Char} {n k : Nat} {cs out : List Char} {ps qs rs : List Part}
  {counts : Nat → Prop}

/-- Of all readings of a text with marks that count, the cut has the fewest braces among its
characters. -/
theorem Cut.fewest (cut : Cut counts cs qs) (counted : ∀ i, .mark i ∈ rs → counts i)
    (read : rs.flatMap Part.written = cs) :
    rs = qs ∨ qs.count (.char '\x7b') < rs.count (.char '\x7b') := by
  induction cut generalizing rs with
  | nil =>
    cases rs with
    | nil => exact .inl rfl
    | cons p rs => cases p <;> simp [Part.written, placeholder] at read
  | @mark i rest qs here _ ih =>
    cases rs with
    | nil => simp [placeholder] at read
    | cons p rs =>
      have counted' : ∀ i, .mark i ∈ rs → counts i :=
        fun i member => counted i (List.mem_cons_of_mem p member)
      cases p with
      | mark j =>
        obtain ⟨rfl, inner⟩ := placeholder_unique read
        rcases ih counted' inner with rfl | fewer
        · exact .inl rfl
        · exact .inr (by simpa using fewer)
      | char c =>
        rw [placeholder_append] at read
        obtain ⟨rfl, inner⟩ := List.cons.inj read
        obtain ⟨others, rfl, after⟩ :=
          exists_of_written (fun _ => isAsciiDigit_of_mem_numeral) inner
        have counted'' : ∀ i, .mark i ∈ others → counts i := by
          intro i member
          exact counted' i (List.mem_append_right _ (List.mem_cons_of_mem _ member))
        have atMost : qs.count (.char '\x7b') ≤ others.count (.char '\x7b') := by
          rcases ih counted'' after with rfl | fewer
          · exact le_rfl
          · exact fewer.le
        have part : (.char '\x7b' :: others).Sublist
            (.char '\x7b' :: ((numeral i).map .char ++ .char '\x7d' :: others)) :=
          ((List.sublist_cons_self ..).trans (List.sublist_append_right ..)).cons_cons _
        have more := part.count_le (.char '\x7b')
        rw [List.count_cons_self] at more
        right
        rw [List.count_cons_of_ne Part.noConfusion]
        omega
  | @char c rest qs plain _ ih =>
    cases rs with
    | nil => simp at read
    | cons p rs =>
      have counted' : ∀ i, .mark i ∈ rs → counts i :=
        fun i member => counted i (List.mem_cons_of_mem p member)
      cases p with
      | mark j => exact absurd ⟨_, read⟩ (plain j (counted j List.mem_cons_self))
      | char d =>
        obtain ⟨rfl, inner⟩ := List.cons.inj read
        rcases ih counted' inner with rfl | fewer
        · exact .inl rfl
        · right
          rw [List.count_cons, List.count_cons]
          exact Nat.add_lt_add_right fewer _

/-- What is made of parts holds as many braces as there are among the characters, if a character makes
itself and no mark makes a brace. -/
theorem count_flatMap {β : Type} [BEq β] [LawfulBEq β] {f : Part → List β} {brace : β}
    (chars : ∀ c, (f (.char c)).count brace = [Part.char c].count (.char '\x7b'))
    (marks : ∀ i, .mark i ∈ ps → brace ∉ f (.mark i)) :
    (ps.flatMap f).count brace = ps.count (.char '\x7b') := by
  induction ps with
  | nil => rfl
  | cons p ps ih =>
    have rest := ih fun i member => marks i (List.mem_cons_of_mem p member)
    rw [List.flatMap_cons, List.count_append, rest, ← List.singleton_append, List.count_append]
    cases p with
    | char c => rw [chars c]
    | mark i =>
      have none := List.count_eq_zero_of_not_mem (marks i List.mem_cons_self)
      rw [none, List.count_singleton]
      rfl

theorem count_char (c : Char) : [c].count '\x7b' = [Part.char c].count (.char '\x7b') := by
  simp [List.count_singleton]

theorem count_written (unmarked : ∀ i, .mark i ∉ ps) :
    (ps.flatMap Part.written).count '\x7b' = ps.count (.char '\x7b') :=
  count_flatMap count_char fun i member => absurd member (unmarked i)

theorem count_fill (noBrace : ∀ i, '\x7b' ∉ texts i) (ps : List Part) :
    (ps.flatMap (Part.fill texts)).count '\x7b' = ps.count (.char '\x7b') :=
  count_flatMap count_char fun i _ => noBrace i

theorem count_settle (noBrace : ∀ i, '\x7b' ∉ texts i) (ps : List Part) :
    (ps.flatMap (Part.settle texts k)).count (.char '\x7b') = ps.count (.char '\x7b') := by
  refine count_flatMap (fun _ => rfl) fun i _ made => ?_
  rcases char_of_settle made with same | ⟨j, -, -, member⟩
  · cases same
  · exact noBrace j member

theorem settle_eq_self (later : ∀ i, .mark i ∈ ps → k ≤ i) :
    ps.flatMap (Part.settle texts k) = ps := by
  induction ps with
  | nil => rfl
  | cons p ps ih =>
    have rest := ih fun i member => later i (List.mem_cons_of_mem p member)
    cases p with
    | char c => simp [Part.settle, rest]
    | mark i => simp [Part.settle, rest, (later i List.mem_cons_self).not_gt]

theorem settle_settle {j : Nat} (up : k ≤ j) (ps : List Part) :
    (ps.flatMap (Part.settle texts k)).flatMap (Part.settle texts j) =
      ps.flatMap (Part.settle texts j) := by
  rw [List.flatMap_assoc]
  refine List.flatMap_congr fun p _ => ?_
  cases p with
  | char c => simp [Part.settle]
  | mark i =>
    by_cases early : i < k
    · have earlier : i < j := by omega
      simp only [Part.settle, early, earlier, if_true, List.flatMap_map]
      exact (List.map_eq_flatMap ..).symm
    · simp [Part.settle, early]

theorem mark_of_settle {i : Nat} (member : .mark i ∈ ps.flatMap (Part.settle texts k)) :
    k ≤ i ∧ .mark i ∈ ps := by
  obtain ⟨p, inside, made⟩ := List.mem_flatMap.mp member
  cases p with
  | char c => simp [Part.settle] at made
  | mark j =>
    rw [Part.settle] at made
    split_ifs at made with early
    · simp at made
    · obtain rfl : i = j := by simpa using made
      exact ⟨Nat.le_of_not_lt early, inside⟩

/-- What is filled in turn has no more braces than the characters of any reading for the marks that
are left, and fewer if a mark is spelled on the way. -/
theorem FilledInTurn.fewest (filled : FilledInTurn texts n k cs out)
    (noBrace : ∀ i, '\x7b' ∉ texts i) (left : ∀ i, .mark i ∈ rs → k ≤ i ∧ i < n)
    (read : rs.flatMap Part.written = cs) :
    out.count '\x7b' ≤ rs.count (.char '\x7b') ∧
      (out.count '\x7b' = rs.count (.char '\x7b') → ∀ j, k ≤ j → j < n →
        ¬(placeholder j).map Part.char <:+: rs.flatMap (Part.settle texts j)) := by
  induction filled generalizing rs with
  | done =>
    have unmarked : ∀ i, .mark i ∉ rs := by
      intro i member
      obtain ⟨low, high⟩ := left i member
      omega
    subst read
    exact ⟨(count_written unmarked).le, fun _ j low high => by omega⟩
  | @next k cs out ps more cut _ ih =>
    obtain ⟨qs, whole⟩ := exists_cut (fun i => k ≤ i ∧ i < n) cs
    have unspelled := whole.not_spelled ⟨le_rfl, more⟩
    have late : ∀ i, .mark i ∈ qs → k ≤ i := fun i member => (whole.counted member).1
    have parts : ps = qs.flatMap (Part.only k) := by
      have split := cut_only unspelled
      rw [whole.flatMap_written] at split
      exact cut.unique split
    have written : (qs.flatMap (Part.settle texts (k + 1))).flatMap Part.written =
        ps.flatMap (Part.fill texts) := by
      rw [← flatMap_only_settle, settle_eq_self late, parts]
    have left' : ∀ i, .mark i ∈ qs.flatMap (Part.settle texts (k + 1)) → k + 1 ≤ i ∧ i < n := by
      intro i member
      obtain ⟨low, inside⟩ := mark_of_settle member
      exact ⟨low, (whole.counted inside).2⟩
    obtain ⟨atMost, exact'⟩ := ih left' written
    rw [count_settle noBrace] at atMost exact'
    rcases whole.fewest left read with rfl | fewer
    · refine ⟨atMost, fun equal j low high => ?_⟩
      rcases low.eq_or_lt with rfl | above
      · rwa [settle_eq_self late]
      · rw [← settle_settle (Nat.succ_le_of_lt above)]
        exact exact' equal j above high
    · exact ⟨atMost.trans fewer.le, fun equal => by omega⟩

end Braces

/-- What `format` does. The marks of a format are filled one after another, each in one scan over all
that stands there by then. The text is the one that a single scan gives, with every argument in the
place of its marks, if no other characters spell a mark on the way; and if no argument holds an opening
brace, then only in that case. -/
theorem call_format (f : Value) (args : List Value) :
    ∃ ps out, (∀ qs, Cut (· < args.length) (asText f).toList qs ↔ qs = ps) ∧
      call "format" (f :: args) = .ok (.text (String.ofList out)) ∧
      FilledInTurn (textAt args) args.length 0 (asText f).toList out ∧
      (Harmless (textAt args) args.length ps → out = ps.flatMap (Part.fill (textAt args))) ∧
      ((∀ i, '\x7b' ∉ textAt args i) → out = ps.flatMap (Part.fill (textAt args)) →
        Harmless (textAt args) args.length ps) := by
  obtain ⟨ps, cut⟩ := exists_cut (· < args.length) (asText f).toList
  have below : ∀ i, .mark i ∈ ps → 0 ≤ i ∧ i < args.length :=
    fun i member => ⟨Nat.zero_le i, cut.counted member⟩
  have filled := filledInTurn_fillPlaceholders (k := 0) (asText f).toList
    (fun i => congrArg (textAt args) (Nat.zero_add i))
  rw [Nat.zero_add] at filled
  have only : ∀ qs, Cut (· < args.length) (asText f).toList qs ↔ qs = ps :=
    fun qs => ⟨fun also => also.unique cut, fun same => same ▸ cut⟩
  refine ⟨ps, _, only, rfl, filled, ?_, ?_⟩
  · intro harmless
    have start : ps.flatMap (Part.settle (textAt args) 0) = ps :=
      settle_eq_self fun i member => (below i member).1
    have read : (ps.flatMap (Part.settle (textAt args) 0)).flatMap Part.written =
        (asText f).toList := by
      rw [start, cut.flatMap_written]
    exact filled.eq_fill (fun i member => (below i member).2) harmless read
  · intro noBrace same k few
    refine (filled.fewest noBrace below cut.flatMap_written).2 ?_ k (Nat.zero_le k) few
    rw [same, count_fill noBrace]

/-- Marks in any order, and one of them twice. -/
theorem call_format_sample :
    Harmless (textAt [.text "x", .text "y"]) 2 [.mark 1, .mark 0, .mark 1] ∧
      call "format" [.text "\x7b1\x7d\x7b0\x7d\x7b1\x7d", .text "x", .text "y"] =
        .ok (.text "yxy") := by
  obtain ⟨ps, out, cuts, value, -, same, -⟩ :=
    call_format (.text "\x7b1\x7d\x7b0\x7d\x7b1\x7d") [.text "x", .text "y"]
  have cut : Cut (· < 2) (placeholder 1 ++ (placeholder 0 ++ (placeholder 1 ++ [])))
      [.mark 1, .mark 0, .mark 1] :=
    .mark (by decide) (.mark (by decide) (.mark (by decide) .nil))
  obtain rfl := (cuts _).mp cut
  have harmless : Harmless (textAt [.text "x", .text "y"]) 2 [.mark 1, .mark 0, .mark 1] := by
    refine harmless_of_noBrace (fun i few => ?_) (by decide)
    obtain rfl : i = 0 := by omega
    decide
  refine ⟨harmless, ?_⟩
  rw [value, same harmless]
  rfl

/-- An argument that reads like a later mark is replaced in its turn. -/
theorem call_format_rescans :
    Cut (· < 2) "\x7b0\x7d \x7b1\x7d".toList [.mark 0, .char ' ', .mark 1] ∧
      [.mark 0, .char ' ', .mark 1].flatMap (Part.fill (textAt [.text "\x7b1\x7d", .text "x"])) =
        "\x7b1\x7d x".toList ∧
      call "format" [.text "\x7b0\x7d \x7b1\x7d", .text "\x7b1\x7d", .text "x"] =
        .ok (.text "x x") := by
  have space : ∀ i, i < 2 → ¬placeholder i <+: ' ' :: (placeholder 1 ++ []) :=
    fun i _ => not_starts_of_ne (by decide)
  have cut : Cut (· < 2) (placeholder 0 ++ ' ' :: (placeholder 1 ++ []))
      [.mark 0, .char ' ', .mark 1] :=
    .mark (by decide) (.char space (.mark (by decide) .nil))
  exact ⟨cut, by decide, rfl⟩

end Drydock.Expr.Format
