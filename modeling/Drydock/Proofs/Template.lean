import Drydock.Proofs.Expr.References
import Drydock.Proofs.Text.Search
import Drydock.Template

set_option autoImplicit false
set_option relaxedAutoImplicit false

/-!
What is filled into a text. The places of a text are the leftmost spans between an opening and a
closing mark that do not overlap, as far as they write references. Main statement: the places depend
on the text alone, and a filled text is its literal pieces with the values between them.
-/

namespace Drydock

namespace Text

variable {cs w : List Char}

theorem not_isBlank_of_mem_words (word : w ∈ words cs) : ∀ c ∈ w, isBlank c = false := by
  fun_induction words cs generalizing w with
  | case1 => cases word
  | case2 _ _ _ ih => exact ih word
  | case3 c solid =>
    obtain rfl := List.mem_singleton.mp word
    simpa using solid
  | case4 c solid d r _ ih =>
    rcases List.mem_cons.mp word with rfl | later
    · simpa using solid
    · exact ih later
  | case5 c solid d r _ rest =>
    rw [rest] at word
    obtain rfl := List.mem_singleton.mp word
    simpa using solid
  | case6 c solid d r _ v others rest ih =>
    rw [rest] at word ih
    rcases List.mem_cons.mp word with rfl | later
    · exact List.forall_mem_cons.mpr ⟨by simpa using solid, ih List.mem_cons_self⟩
    · exact ih (List.mem_cons_of_mem v later)

/-- A text without blanks that is words with blanks between them is one word. -/
theorem words_eq_singleton (some : w ≠ []) (solid : ∀ c ∈ w, isBlank c = false)
    (joined : [' '].intercalate (words cs) = w) : words cs = [w] := by
  generalize words cs = parts at joined ⊢
  subst joined
  cases parts with
  | nil => exact absurd rfl some
  | cons first others =>
    cases others with
    | nil => simp
    | cons second others =>
      have blank : ' ' ∈ [' '].intercalate (first :: second :: others) := by
        simp [List.intercalate_cons_cons]
      exact absurd (solid ' ' blank) (by decide)

end Text

namespace Reference

open Text (splitAtChar words isBlank)

variable {r : Reference} {cs : List Char}

/-- A text writes a reference if its words, with one blank between any two, are the spelling, and all
names are plain. -/
structure IsWrittenBy (r : Reference) (cs : List Char) : Prop where
  spelled : [' '].intercalate (words cs) = r.spelling.toList
  plain : ∀ name ∈ r.names, IsPlain name

theorem splitAtChar_spelling_of_plain (plain : ∀ name ∈ r.names, IsPlain name) :
    splitAtChar '.' r.spelling.toList = r.segments.map String.toList := by
  rw [toList_spelling]
  refine Text.splitAtChar_intercalate ?_ ?_
  · cases r <;> exact List.cons_ne_nil _ _
  · cases r <;> simp_all [names, segments, IsPlain.noPoint]

theorem not_isBlank_of_mem_spelling (plain : ∀ name ∈ r.names, IsPlain name) :
    ∀ c ∈ r.spelling.toList, isBlank c = false := by
  cases r with
  | output step name =>
    obtain ⟨plainStep, plainName⟩ := List.forall_mem_cons.mp plain
    have read := parse?_spelling plainStep (plainName name List.mem_cons_self)
    have one := (spelling_of_parse? read).1
    exact Text.not_isBlank_of_mem_words (by rw [one]; exact List.mem_cons_self)
  | env name =>
    have scope : "env.".toList.all (!isBlank ·) = true := by decide
    have own := (plain name List.mem_cons_self).noBlank
    intro c member
    rw [spelling, String.toList_append, List.mem_append] at member
    rcases member with fixed | named
    · simpa using List.all_eq_true.mp scope c fixed
    · exact own c named

theorem ofSegments?_segments (plain : ∀ name ∈ r.names, IsPlain name) :
    ofSegments? (r.segments.map String.toList) = some r := by
  cases r <;> simp_all [names, segments, ofSegments?, IsPlain.nonempty]

/-- The names of a reference that is read hold no points and no blanks, and none is empty. -/
theorem plain_of_parse? (read : parse? cs = some r) : ∀ name ∈ r.names, IsPlain name := by
  intro name named
  unfold parse? at read
  split at read
  · rename_i word one
    obtain ⟨parts, solid⟩ := segments_of_ofSegments? read
    have part : name.toList ∈ splitAtChar '.' word := by
      rw [parts]
      exact List.mem_map_of_mem (names_subset r named)
    have inside : ∀ c ∈ name.toList, c ∈ word ∧ c ≠ '.' :=
      fun c member => Text.of_mem_splitAtChar part member
    have noBlank := Text.not_isBlank_of_mem_words (one ▸ List.mem_cons_self : word ∈ words cs)
    exact {
      nonempty := fun empty => solid (by simpa [empty] using part)
      noPoint := fun point => (inside '.' point).2 rfl
      noBlank := fun c member => noBlank c (inside c member).1 }
  · cases read

/-- The reference that is read in a text is the one that the text writes. -/
theorem parse?_eq_some_iff : parse? cs = some r ↔ r.IsWrittenBy cs := by
  constructor
  · intro read
    exact ⟨by simp [(spelling_of_parse? read).1], plain_of_parse? read⟩
  · rintro ⟨spelled, plain⟩
    have some : r.spelling.toList ≠ [] := by cases r <;> simp [spelling]
    have one := Text.words_eq_singleton some (not_isBlank_of_mem_spelling plain) spelled
    rw [parse?, one]
    exact (congrArg ofSegments? (splitAtChar_spelling_of_plain plain)).trans
      (ofSegments?_segments plain)

end Reference

namespace Template

open Text (StandsAt cutAt?)

section Spans

/-- A span of a text, from where its opening mark begins to where its closing mark begins. -/
structure Span where
  opens : Nat
  closes : Nat

namespace Span

/-- Where the inside of a span begins. -/
def inner (s : Span) : Nat :=
  s.opens + opening.length

/-- Where a span ends. -/
def stop (s : Span) : Nat :=
  s.closes + closing.length

/-- Both marks of a span stand in the text, and no closing mark stands nearer to the opening one. -/
structure IsMarked (cs : List Char) (s : Span) : Prop where
  opened : StandsAt opening cs s.opens
  apart : s.inner ≤ s.closes
  closed : StandsAt closing cs s.closes
  nearest : ∀ i, s.inner ≤ i → i < s.closes → ¬StandsAt closing cs i

/-- What stands between the marks. -/
def inside (cs : List Char) (s : Span) : List Char :=
  cs.extract s.inner s.closes

/-- A span as it is written, marks and all. -/
def source (cs : List Char) (s : Span) : List Char :=
  cs.extract s.opens s.stop

end Span

/-- The spans of a text from a place on, each the leftmost one that begins after the last ends. -/
inductive Leftmost (cs : List Char) : Nat → List Span → Prop
  | nil {i : Nat} (none : ∀ s : Span, s.IsMarked cs → s.opens < i) : Leftmost cs i []
  | cons {i : Nat} {s : Span} {spans : List Span} (marked : s.IsMarked cs) (later : i ≤ s.opens)
      (first : ∀ t : Span, t.IsMarked cs → i ≤ t.opens → s.opens ≤ t.opens)
      (rest : Leftmost cs s.stop spans) : Leftmost cs i (s :: spans)

/-- A span that writes a reference. -/
structure Place where
  span : Span
  reference : Reference

/-- The places among spans: those whose inside writes a reference, in the same order. -/
inductive Chosen (cs : List Char) : List Span → List Place → Prop
  | nil : Chosen cs [] []
  | take {s : Span} {r : Reference} {spans : List Span} {places : List Place}
      (written : r.IsWrittenBy (s.inside cs)) (rest : Chosen cs spans places) :
      Chosen cs (s :: spans) (⟨s, r⟩ :: places)
  | pass {s : Span} {spans : List Span} {places : List Place}
      (other : ∀ r : Reference, ¬r.IsWrittenBy (s.inside cs)) (rest : Chosen cs spans places) :
      Chosen cs (s :: spans) places

/-- The places of a text that are filled. -/
def Places (cs : List Char) (places : List Place) : Prop :=
  ∃ spans, Leftmost cs 0 spans ∧ Chosen cs spans places

/-- The literal pieces of a text from a place on: what stands before, between and after spans. -/
def between (cs : List Char) : Nat → List Place → List (List Char)
  | i, [] => [cs.drop i]
  | i, p :: places => cs.extract i p.span.opens :: between cs p.span.stop places

/-- Pieces with values between them. -/
def weave : List (List Char) → List (List Char) → List Char
  | piece :: pieces, v :: values => piece ++ v ++ weave pieces values
  | pieces, _ => pieces.flatten

end Spans

section Uniqueness

variable {cs : List Char} {s t : Span} {i : Nat} {spans others : List Span}

/-- A marked span is known by where it opens. -/
theorem Span.IsMarked.unique (marked : s.IsMarked cs) (also : t.IsMarked cs)
    (same : s.opens = t.opens) : s = t := by
  have inner : s.inner = t.inner := congrArg (· + opening.length) same
  have close : s.closes = t.closes := by
    rcases Nat.lt_trichotomy s.closes t.closes with near | equal | near
    · exact absurd marked.closed (also.nearest _ (inner ▸ marked.apart) near)
    · exact equal
    · exact absurd also.closed (marked.nearest _ (inner ▸ also.apart) near)
  cases s
  cases t
  simp_all

theorem Leftmost.unique (leftmost : Leftmost cs i spans) (also : Leftmost cs i others) :
    spans = others := by
  induction leftmost generalizing others with
  | nil none =>
    cases also with
    | nil => rfl
    | cons marked later => exact absurd (none _ marked) (Nat.not_lt.mpr later)
  | cons marked later first _ ih =>
    cases also with
    | nil none => exact absurd (none _ marked) (Nat.not_lt.mpr later)
    | cons marked' later' first' rest' =>
      have same := Nat.le_antisymm (first _ marked' later') (first' _ marked later)
      obtain rfl := marked.unique marked' same
      rw [ih rest']

theorem Chosen.unique {places others : List Place} (chosen : Chosen cs spans places)
    (also : Chosen cs spans others) : places = others := by
  induction chosen generalizing others with
  | nil =>
    cases also
    rfl
  | take written _ ih =>
    cases also with
    | take written' rest' =>
      have same := (Reference.parse?_eq_some_iff.mpr written).symm.trans
        (Reference.parse?_eq_some_iff.mpr written')
      rw [Option.some.inj same, ih rest']
    | pass other _ => exact absurd written (other _)
  | pass other _ ih =>
    cases also with
    | take written _ => exact absurd written (other _)
    | pass _ rest' => exact ih rest'

end Uniqueness

section Weaving

variable {cs a p v : List Char} {ps vs : List (List Char)} {i j : Nat} {s : Span}
  {spans : List Span} {places : List Place}

theorem weave_append : weave ((a ++ p) :: ps) vs = a ++ weave (p :: ps) vs := by
  cases vs <;> simp [weave]

theorem extract_middle (lead p rest : List Char) :
    (lead ++ p ++ rest).extract lead.length (lead ++ p).length = p := by
  rw [List.extract_eq_take_drop, List.append_assoc, List.drop_left, List.length_append,
    Nat.add_sub_cancel_left, List.take_left]

theorem extract_append_extract {k : Nat} (first : i ≤ j) (second : j ≤ k) :
    cs.extract i j ++ cs.extract j k = cs.extract i k := by
  obtain ⟨m, rfl⟩ := Nat.exists_eq_add_of_le first
  obtain ⟨n, rfl⟩ := Nat.exists_eq_add_of_le second
  have whole : i + m + n - i = m + n := by omega
  simp only [List.extract_eq_take_drop, Nat.add_sub_cancel_left, whole, List.take_add,
    List.drop_drop]

theorem extract_append_drop (first : i ≤ j) : cs.extract i j ++ cs.drop j = cs.drop i := by
  obtain ⟨m, rfl⟩ := Nat.exists_eq_add_of_le first
  rw [List.extract_eq_take_drop, Nat.add_sub_cancel_left, ← List.drop_drop, List.take_append_drop]

/-- The pieces from a place on are those from a later one with what lies before in front, if no span
opens earlier. -/
theorem weave_between_of_le (first : i ≤ j) (later : ∀ p ∈ places, j ≤ p.span.opens) :
    weave (between cs i places) vs = cs.extract i j ++ weave (between cs j places) vs := by
  cases places with
  | nil =>
    rw [between, between, ← weave_append, extract_append_drop first]
  | cons p places =>
    have near := later p List.mem_cons_self
    rw [between, between, ← weave_append, extract_append_extract first near]

theorem Span.IsMarked.opens_le_stop (marked : s.IsMarked cs) : s.opens ≤ s.stop := by
  have apart := marked.apart
  unfold Span.inner at apart
  unfold Span.stop
  omega

theorem Leftmost.le_opens (leftmost : Leftmost cs i spans) : ∀ s ∈ spans, i ≤ s.opens := by
  induction leftmost with
  | nil => simp
  | cons marked later _ _ ih =>
    refine List.forall_mem_cons.mpr ⟨later, fun s member => ?_⟩
    have after := ih s member
    have width := marked.opens_le_stop
    omega

theorem Chosen.mem (chosen : Chosen cs spans places) : ∀ p ∈ places, p.span ∈ spans := by
  induction chosen with
  | nil => simp
  | take _ _ ih =>
    exact List.forall_mem_cons.mpr
      ⟨List.mem_cons_self, fun p member => List.mem_cons_of_mem _ (ih p member)⟩
  | pass _ _ ih => exact fun p member => List.mem_cons_of_mem _ (ih p member)

/-- With every place as it is written, the pieces make the text again. -/
theorem weave_source (leftmost : Leftmost cs i spans) (chosen : Chosen cs spans places) :
    weave (between cs i places) (places.map (·.span.source cs)) = cs.drop i := by
  induction leftmost generalizing places with
  | nil =>
    cases chosen
    simp [between, weave]
  | cons marked later _ rest ih =>
    have width := marked.opens_le_stop
    cases chosen with
    | take _ others =>
      rw [between, List.map_cons, weave, ih others, Span.source, extract_append_extract later width,
        extract_append_drop (later.trans width)]
    | pass _ others =>
      have after : ∀ p ∈ places, _ ≤ p.span.opens :=
        fun p member => rest.le_opens p.span (others.mem p member)
      rw [weave_between_of_le (later.trans width) after, ih others,
        extract_append_drop (later.trans width)]

end Weaving

section Filling

variable {cs front lead before rest inside after : List Char} {t : Span}

/-- The span that opens after a text and has another one inside. -/
def Span.around (lead inside : List Char) : Span :=
  ⟨lead.length, (lead ++ opening ++ inside).length⟩

theorem Span.inner_around : (around lead inside).inner = (lead ++ opening).length :=
  (List.length_append ..).symm

theorem Span.closes_around :
    (around lead inside).closes = (lead ++ opening).length + inside.length :=
  List.length_append ..

theorem Span.stop_around :
    (around lead inside).stop = (lead ++ opening ++ inside ++ closing).length :=
  (List.length_append ..).symm

theorem cut_of_opened (front : List Char) (opened : cutAt? opening cs = some (before, rest)) :
    front ++ cs = front ++ before ++ opening ++ rest := by
  rw [Text.eq_of_cutAt? opened]
  simp

/-- A marked span beyond a text opens no earlier than where the rest is cut. -/
theorem Span.IsMarked.le_opens_of_cutAt? (opened : cutAt? opening cs = some (before, rest))
    (marked : t.IsMarked (front ++ cs)) (later : front.length ≤ t.opens) :
    (front ++ before).length ≤ t.opens := by
  obtain ⟨k, place⟩ := Nat.exists_eq_add_of_le later
  have stands := marked.opened
  rw [place, Text.standsAt_append] at stands
  have reached : before.length ≤ k := by
    by_contra near
    exact Text.not_standsAt_of_cutAt? opened k (Nat.lt_of_not_le near) stands
  rw [place, List.length_append]
  omega

theorem leftmost_of_not_opened (none : cutAt? opening cs = none) :
    Leftmost (front ++ cs) front.length [] := by
  refine .nil fun s marked => ?_
  by_contra later
  obtain ⟨k, place⟩ := Nat.exists_eq_add_of_le (Nat.le_of_not_lt later)
  have stands := marked.opened
  rw [place, Text.standsAt_append] at stands
  exact Text.cutAt?_eq_none_iff.mp none k stands

theorem leftmost_of_not_closed (opened : cutAt? opening cs = some (before, rest))
    (none : cutAt? closing rest = none) : Leftmost (front ++ cs) front.length [] := by
  refine .nil fun s marked => ?_
  by_contra later
  have reached := marked.le_opens_of_cutAt? opened (Nat.le_of_not_lt later)
  have apart := marked.apart
  -- the closing mark stands behind the first opening one, where there is none
  have behind : (front ++ before ++ opening).length ≤ s.closes := by
    rw [List.length_append]
    unfold Span.inner at apart
    omega
  obtain ⟨k, place⟩ := Nat.exists_eq_add_of_le behind
  have stands := marked.closed
  rw [cut_of_opened front opened, place, Text.standsAt_append] at stands
  exact Text.cutAt?_eq_none_iff.mp none k stands

section Around

variable (front) (opened : cutAt? opening cs = some (before, rest))
  (closed : cutAt? closing rest = some (inside, after))

include opened

theorem extract_of_opened :
    (front ++ cs).extract front.length (front ++ before).length = before := by
  rw [cut_of_opened front opened, List.append_assoc _ opening]
  exact extract_middle front before _

include closed

theorem cut_of_closed :
    front ++ cs = front ++ before ++ opening ++ inside ++ closing ++ after := by
  rw [cut_of_opened front opened, Text.eq_of_cutAt? closed]
  simp

theorem isMarked_around : (Span.around (front ++ before) inside).IsMarked (front ++ cs) := by
  rw [cut_of_opened front opened]
  exact {
    opened := by
      have stands : StandsAt opening (opening ++ rest) 0 := List.prefix_append opening rest
      simpa [Span.around] using (Text.standsAt_append (front ++ before)).mpr stands
    apart := by
      rw [Span.inner_around, Span.closes_around]
      exact Nat.le_add_right ..
    closed := by
      rw [Span.closes_around, Text.standsAt_append]
      exact Text.standsAt_of_cutAt? closed
    nearest := by
      intro i reached near
      rw [Span.inner_around] at reached
      rw [Span.closes_around] at near
      obtain ⟨k, rfl⟩ := Nat.exists_eq_add_of_le reached
      rw [Text.standsAt_append]
      exact Text.not_standsAt_of_cutAt? closed k (by omega) }

theorem inside_around :
    (Span.around (front ++ before) inside).inside (front ++ cs) = inside := by
  rw [cut_of_closed front opened closed, List.append_assoc _ closing, Span.inside, Span.inner_around]
  exact extract_middle (front ++ before ++ opening) inside _

theorem extract_of_closed :
    (front ++ cs).extract front.length (Span.around (front ++ before) inside).stop =
      before ++ opening ++ inside ++ closing := by
  have whole : front ++ cs = front ++ (before ++ opening ++ inside ++ closing) ++ after := by
    rw [cut_of_closed front opened closed]
    simp
  have stop : (Span.around (front ++ before) inside).stop =
      (front ++ (before ++ opening ++ inside ++ closing)).length := by
    rw [Span.stop_around]
    simp
  rw [whole, stop]
  exact extract_middle front _ after

end Around

/-- What is read of a text behind another one: the spans and places that lie there, and the pieces. -/
theorem exists_places (front cs : List Char) : ∃ spans places,
    Leftmost (front ++ cs) front.length spans ∧ Chosen (front ++ cs) spans places ∧
      ∀ value : Reference → String, (pieces cs).flatMap (Piece.fill value) =
        weave (between (front ++ cs) front.length places)
          (places.map fun p => (value p.reference).toList) := by
  -- what has been read moves to the front, so that places keep counting from the start
  fun_induction pieces cs generalizing front with
  | case1 cs none =>
    exact ⟨[], [], leftmost_of_not_opened none, .nil, by simp [Piece.fill, between, weave]⟩
  | case2 cs before rest opened none =>
    exact ⟨[], [], leftmost_of_not_closed opened none, .nil, by simp [Piece.fill, between, weave]⟩
  | case3 cs before rest opened inside after closed ih =>
    obtain ⟨spans, places, leftmost, chosen, filled⟩ :=
      ih (front ++ before ++ opening ++ inside ++ closing)
    rw [← cut_of_closed front opened closed, ← Span.stop_around] at leftmost filled
    rw [← cut_of_closed front opened closed] at chosen
    have marked := isMarked_around front opened closed
    have later : front.length ≤ (front ++ before).length := by simp
    have all : Leftmost (front ++ cs) front.length (.around (front ++ before) inside :: spans) :=
      .cons marked later (fun t marked' later' => marked'.le_opens_of_cutAt? opened later') leftmost
    cases read : Reference.parse? inside with
    | some r =>
      refine ⟨_, ⟨_, r⟩ :: places, all, .take ?_ chosen, fun value => ?_⟩
      · rw [inside_around front opened closed]
        exact Reference.parse?_eq_some_iff.mp read
      · have piece := extract_of_opened front opened
        simp only [List.flatMap_cons, Piece.ofInside, read, Piece.fill, filled, between, weave,
          List.map_cons, List.append_assoc]
        rw [Span.around, piece]
    | none =>
      refine ⟨_, places, all, .pass ?_ chosen, fun value => ?_⟩
      · intro r written
        rw [inside_around front opened closed] at written
        cases read.symm.trans (Reference.parse?_eq_some_iff.mpr written)
      · have beyond := fun p member => leftmost.le_opens _ (chosen.mem p member)
        rw [weave_between_of_le (later.trans marked.opens_le_stop) beyond,
          extract_of_closed front opened closed, ← filled]
        simp [Piece.ofInside, read, Piece.fill]

/-- A text has its places by itself, and whatever the data, what is filled in stands between its
literal pieces as it is. -/
theorem fill_eq_weave (text : String) :
    ∃ places, (∀ others, Places text.toList others ↔ others = places) ∧
      weave (between text.toList 0 places) (places.map (·.span.source text.toList)) =
        text.toList ∧
      ∀ (outputs : Bindings (Bindings String)) (env : Bindings String),
        (fill (Reference.value outputs env) text).toList =
          weave (between text.toList 0 places)
            (places.map fun p => (p.reference.value outputs env).toList) := by
  obtain ⟨spans, places, leftmost, chosen, filled⟩ := exists_places [] text.toList
  refine ⟨places, fun others => ⟨?_, ?_⟩, weave_source leftmost chosen, fun outputs env => ?_⟩
  · rintro ⟨spans', leftmost', chosen'⟩
    obtain rfl := leftmost.unique leftmost'
    exact chosen'.unique chosen
  · rintro rfl
    exact ⟨spans, leftmost, chosen⟩
  · rw [fill, String.toList_ofList]
    exact filled (Reference.value outputs env)

end Filling

end Template

end Drydock
