import Drydock.Docker
import Drydock.Proofs.Text.Search
import Drydock.Run.Command
import Mathlib

set_option autoImplicit false
set_option relaxedAutoImplicit false

/-!
The arguments that describe a container. Main statements: two containers have the same arguments exactly if
their variables and mounts spell the same texts, cut at other places, or if the image of one is the name
of an option, so that its command is read as options of the other; and nothing else can be confused.
-/

namespace Drydock

namespace Text

/-- Two texts and another two that make one text with a mark between them. The mark is in the same place, or
one of the first texts goes on to a later one. -/
inductive Recut (mark : String) : String × String → String × String → Prop
  | same (p : String × String) : Recut mark p p
  | later (first between last : String) :
      Recut mark (first, between ++ mark ++ last) (first ++ mark ++ between, last)
  | earlier (first between last : String) :
      Recut mark (first ++ mark ++ between, last) (first, between ++ mark ++ last)

/-- A mark that does not overlap with itself: its first character is only there. -/
def IsMark (mark : String) : Prop :=
  ∃ c rest, mark.toList = c :: rest ∧ c ∉ rest

variable {mark : String} {c : Char} {rest front back back' : List Char} {p q : String × String}

/-- A text between two places of a mark goes from the end of the one to the start of the other. -/
theorem exists_between (fresh : c ∉ rest) (proper : front ≠ [])
    (whole : c :: rest ++ back = front ++ (c :: rest ++ back')) :
    ∃ between, front = c :: rest ++ between ∧ back = between ++ (c :: rest ++ back') := by
  rcases List.append_eq_append_iff.mp whole with ⟨between, longer, ends⟩ | ⟨shared, shorter, ends⟩
  · exact ⟨between, longer, ends⟩
  · -- The second place would begin within the first, at another character than the mark begins with.
    cases shared with
    | nil => exact ⟨[], by simpa using shorter.symm, by simpa using ends.symm⟩
    | cons d shared =>
      obtain ⟨e, front, rfl⟩ := List.exists_cons_of_ne_nil proper
      obtain ⟨-, inside⟩ := List.cons.inj shorter
      obtain ⟨rfl, -⟩ := List.cons.inj ends
      exact absurd (inside ▸ List.mem_append_right front List.mem_cons_self) fresh

theorem Recut.symm (recut : Recut mark p q) : Recut mark q p := by
  cases recut with
  | same => exact .same p
  | later first between last => exact .earlier first between last
  | earlier first between last => exact .later first between last

theorem recut_of_append (lone : IsMark mark) (longer : q.1.toList = p.1.toList ++ front)
    (ends : mark.toList ++ p.2.toList = front ++ (mark.toList ++ q.2.toList)) : Recut mark p q := by
  obtain ⟨first, last⟩ := p
  obtain ⟨first', last'⟩ := q
  by_cases equal : front = []
  · subst equal
    obtain rfl : first' = first := String.toList_inj.mp (longer.trans (List.append_nil _))
    obtain rfl : last = last' := String.toList_inj.mp (List.append_cancel_left ends)
    exact .same _
  · obtain ⟨c, rest, spelled, fresh⟩ := lone
    rw [spelled] at ends
    obtain ⟨between, front_eq, last_eq⟩ := exists_between fresh equal ends
    rw [← spelled] at front_eq last_eq
    obtain rfl : first' = first ++ mark ++ String.ofList between := by
      rw [← String.toList_inj, longer, front_eq]
      simp
    obtain rfl : last = String.ofList between ++ mark ++ last' := by
      rw [← String.toList_inj, last_eq]
      simp
    exact .later ..

/-- Whatever is written around a mark, there are these ways and no others to read it back. -/
theorem recut_iff (lone : IsMark mark) :
    p.1 ++ mark ++ p.2 = q.1 ++ mark ++ q.2 ↔ Recut mark p q := by
  constructor
  · intro same
    simp only [← String.toList_inj, String.toList_append, List.append_assoc] at same
    rcases List.append_eq_append_iff.mp same with ⟨front, longer, ends⟩ | ⟨front, longer, ends⟩
    · exact recut_of_append lone longer ends
    · exact (recut_of_append lone longer ends).symm
  · rintro (_ | _ | _) <;> simp [String.append_assoc]

/-- Where the mark is in neither first text, it is in the same place. -/
theorem Recut.eq (recut : Recut mark p q) (free : ¬mark.toList <:+: p.1.toList)
    (free' : ¬mark.toList <:+: q.1.toList) : p = q := by
  have holds (first between : String) : mark.toList <:+: (first ++ mark ++ between).toList :=
    ⟨first.toList, between.toList, by simp⟩
  cases recut with
  | same => rfl
  | later first between last => exact absurd (holds first between) free'
  | earlier first between last => exact absurd (holds first between) free

end Text

namespace Docker

open Text (Recut IsMark)

variable {c d : ContainerSpec} {m m' : Mount} {os os' : List (String × String)}
  {image image' : String} {command command' : List String}

section Options

/-- The text of a variable. -/
def assignment (e : String × String) : String := e.1 ++ "=" ++ e.2

/-- The text of a mount behind its kind. -/
def placement (m : Mount) : String := m.source ++ ",target=" ++ m.target

/-- The text of a mount. -/
def description (m : Mount) : String := "type=" ++ (m.kind ++ ",source=" ++ placement m)

/-- The texts for the option that names the working directory, if there is one. -/
def directoryTexts (c : ContainerSpec) : List String :=
  if c.workingDir = "" then [] else [c.workingDir]

/-- An option given once for each text. -/
def each (name : String) (texts : List String) : List (String × String) :=
  texts.map fun text => (name, text)

/-- The options of a container, each with its text. -/
def options (c : ContainerSpec) : List (String × String) :=
  each "--workdir" (directoryTexts c) ++ each "--env" (c.env.entries.map assignment) ++
    each "--mount" (c.mounts.map description)

/-- The names of options. -/
def optionNames : List String := ["--workdir", "--env", "--mount"]

/-- Options as arguments. -/
def spell (os : List (String × String)) : List String :=
  os.flatMap fun o => [o.1, o.2]

theorem mountArgs_eq (m : Mount) : mountArgs m = ["--mount", description m] := by
  simp only [mountArgs, description, placement, String.append_assoc]
  rfl

theorem createArgs_eq (c : ContainerSpec) :
    createArgs c = spell (options c) ++ c.image :: c.command := by
  have directory : (if c.workingDir = "" then [] else ["--workdir", c.workingDir]) =
      (directoryTexts c).flatMap fun text => ["--workdir", text] := by
    unfold directoryTexts
    split <;> rfl
  unfold createArgs spell options each
  rw [directory, funext mountArgs_eq]
  simp only [List.flatMap_append, List.flatMap_map]
  rfl

/-- The texts of an option. -/
def given (name : String) (os : List (String × String)) : List String :=
  (os.filter fun o => o.1 = name).map Prod.snd

theorem given_append (name : String) (os os' : List (String × String)) :
    given name (os ++ os') = given name os ++ given name os' := by
  simp [given]

theorem given_each (name name' : String) (texts : List String) :
    given name (each name' texts) = if name' = name then texts else [] := by
  by_cases same : name' = name <;> simp [given, each, List.filter_map, Function.comp_def, same]

theorem directoryTexts_inj : directoryTexts c = directoryTexts d ↔ c.workingDir = d.workingDir := by
  unfold directoryTexts
  constructor
  · intro same
    split at same <;> split at same <;> simp_all
  · intro same
    rw [same]

/-- Each option has a name of its own, so that its texts can be told from the others. -/
theorem options_eq_iff : options c = options d ↔
    c.workingDir = d.workingDir ∧ c.env.entries.map assignment = d.env.entries.map assignment ∧
      c.mounts.map description = d.mounts.map description := by
  constructor
  · intro same
    have texts (name : String) : given name (options c) = given name (options d) := by rw [same]
    simp only [options, given_append, given_each] at texts
    refine ⟨directoryTexts_inj.mp ?_, ?_, ?_⟩
    · simpa using texts "--workdir"
    · simpa using texts "--env"
    · simpa using texts "--mount"
  · rintro ⟨directory, env, mounts⟩
    rw [options, options, directoryTexts_inj.mpr directory, env, mounts]

/-- An image and a command that go on with a further option, which is followed by others and by another
image and command. -/
def GoesOn (os : List (String × String)) (image : String) (command : List String)
    (os' : List (String × String)) (image' : String) (command' : List String) : Prop :=
  ∃ text more, os' = os ++ (image, text) :: more ∧ command = text :: (spell more ++ image' :: command')

theorem spell_cons (o : String × String) (os : List (String × String)) :
    spell (o :: os) = o.1 :: o.2 :: spell os := rfl

theorem goesOn_cons (o : String × String) :
    GoesOn (o :: os) image command (o :: os') image' command' ↔
      GoesOn os image command os' image' command' := by
  simp only [GoesOn, List.cons_append, List.cons.injEq, true_and]

theorem spell_nil_append_eq_iff {o : String × String} :
    spell [] ++ image :: command = spell (o :: os) ++ image' :: command' ↔
      GoesOn [] image command (o :: os) image' command' := by
  constructor
  · intro same
    obtain ⟨rfl, rest⟩ := List.cons.inj same
    exact ⟨o.2, os, rfl, rest⟩
  · rintro ⟨text, more, first, rfl⟩
    cases first
    rfl

theorem not_goesOn_nil {o : String × String} : ¬GoesOn (o :: os) image command [] image' command' := by
  rintro ⟨text, more, none, -⟩
  cases none

/-- Where options end depends on what is taken for the image: of two ways to read arguments one has the
options of the other and goes on, unless they are the same. -/
theorem spell_append_eq_iff : spell os ++ image :: command = spell os' ++ image' :: command' ↔
    (os = os' ∧ image = image' ∧ command = command') ∨
      GoesOn os image command os' image' command' ∨ GoesOn os' image' command' os image command := by
  induction os generalizing os' with
  | nil =>
    cases os' with
    | nil => simp [spell, GoesOn]
    | cons o' os' => simp [spell_nil_append_eq_iff, not_goesOn_nil]
  | cons o os ih =>
    cases os' with
    | nil =>
      rw [eq_comm, spell_nil_append_eq_iff]
      simp [not_goesOn_nil]
    | cons o' os' =>
      by_cases same : o = o'
      · subst same
        simp [spell_cons, goesOn_cons, ih]
      · have apart : ¬(o.1 = o'.1 ∧ o.2 = o'.2) := fun parts => same (Prod.ext parts.1 parts.2)
        have other : ¬o' = o := fun equal => same equal.symm
        simp only [spell_cons, List.cons_append, List.cons.injEq, GoesOn, same, other, false_and,
          exists_false, or_self, iff_false]
        tauto

end Options

section Containers

/-- Two mounts that are described by one text, in which the kind ends at one place or at another. -/
def MountsAlike (m m' : Mount) : Prop :=
  Recut ",source=" (m.kind, placement m) (m'.kind, placement m')

theorem assignment_eq_iff {e e' : String × String} : assignment e = assignment e' ↔ Recut "=" e e' :=
  Text.recut_iff ⟨'=', [], rfl, by decide⟩

theorem placement_eq_iff : placement m = placement m' ↔
    Recut ",target=" (m.source, m.target) (m'.source, m'.target) :=
  Text.recut_iff (p := (m.source, m.target)) (q := (m'.source, m'.target))
    ⟨',', "target=".toList, by decide, by decide⟩

theorem description_eq_iff : description m = description m' ↔ MountsAlike m m' := by
  have mark : IsMark ",source=" := ⟨',', "source=".toList, by decide, by decide⟩
  have cut : description m = description m' ↔
      m.kind ++ ",source=" ++ placement m = m'.kind ++ ",source=" ++ placement m' := by
    simp only [description, ← String.toList_inj, String.toList_append, List.append_cancel_left_eq,
      List.append_assoc]
  exact cut.trans (Text.recut_iff (p := (m.kind, placement m)) (q := (m'.kind, placement m')) mark)

/-- Two containers that have the same arguments. The texts of their variables and mounts are the same, cut
at one place or at another, and so is all else; or the command of one goes on with options of the other. -/
inductive Confused (c d : ContainerSpec) : Prop
  | recut (image : c.image = d.image) (command : c.command = d.command)
      (workingDir : c.workingDir = d.workingDir)
      (env : List.Forall₂ (Recut "=") c.env.entries d.env.entries)
      (mounts : List.Forall₂ MountsAlike c.mounts d.mounts)
  | firstGoesOn (further : GoesOn (options c) c.image c.command (options d) d.image d.command)
  | secondGoesOn (further : GoesOn (options d) d.image d.command (options c) c.image c.command)

theorem map_eq_map_iff {α : Type} {text : α → String} {alike : α → α → Prop} {xs ys : List α}
    (same : ∀ x y, text x = text y ↔ alike x y) :
    xs.map text = ys.map text ↔ List.Forall₂ alike xs ys := by
  rw [← List.forall₂_eq_eq_eq, List.forall₂_map_left_iff, List.forall₂_map_right_iff]
  simp only [same]

theorem createArgs_eq_iff : createArgs c = createArgs d ↔ Confused c d := by
  have texts : options c = options d ↔ c.workingDir = d.workingDir ∧
      List.Forall₂ (Recut "=") c.env.entries d.env.entries ∧
      List.Forall₂ MountsAlike c.mounts d.mounts := by
    rw [options_eq_iff, map_eq_map_iff fun e e' => assignment_eq_iff,
      map_eq_map_iff fun m m' => description_eq_iff]
  rw [createArgs_eq, createArgs_eq, spell_append_eq_iff, texts]
  constructor
  · rintro (⟨⟨workingDir, env, mounts⟩, image, command⟩ | further | further)
    · exact .recut image command workingDir env mounts
    · exact .firstGoesOn further
    · exact .secondGoesOn further
  · rintro (⟨image, command, workingDir, env, mounts⟩ | further | further)
    · exact .inl ⟨⟨workingDir, env, mounts⟩, image, command⟩
    · exact .inr (.inl further)
    · exact .inr (.inr further)

/-- No name of a variable holds an equals sign. -/
def HasPlainNames (c : ContainerSpec) : Prop :=
  ∀ e ∈ c.env.entries, '=' ∉ e.1.toList

instance (c : ContainerSpec) : Decidable (HasPlainNames c) :=
  inferInstanceAs (Decidable (∀ e ∈ c.env.entries, '=' ∉ e.1.toList))

/-- A mount whose kind and source do not hold what follows them. -/
structure IsPlainMount (m : Mount) : Prop where
  kind : ¬",source=".toList <:+: m.kind.toList
  source : ¬",target=".toList <:+: m.source.toList

/-- All mounts are plain. -/
def HasPlainMounts (c : ContainerSpec) : Prop :=
  ∀ m ∈ c.mounts, IsPlainMount m

theorem eq_of_recut {e e' : String × String} (recut : Recut "=" e e') (plain : '=' ∉ e.1.toList)
    (plain' : '=' ∉ e'.1.toList) : e = e' := by
  refine recut.eq (fun inside => plain ?_) fun inside => plain' ?_
  · exact (List.singleton_infix_iff _ _).mp inside
  · exact (List.singleton_infix_iff _ _).mp inside

theorem MountsAlike.eq (alike : MountsAlike m m') (plain : IsPlainMount m) (plain' : IsPlainMount m') :
    m = m' := by
  obtain ⟨kind, place⟩ := Prod.mk.inj (Recut.eq alike plain.kind plain'.kind)
  obtain ⟨source, target⟩ := Prod.mk.inj
    (Recut.eq (placement_eq_iff.mp place) plain.source plain'.source)
  cases m
  cases m'
  simp_all

theorem eq_of_forall₂ {α : Type} {alike : α → α → Prop} {plain : α → Prop} {xs ys : List α}
    (same : List.Forall₂ alike xs ys) (eq : ∀ x y, alike x y → plain x → plain y → x = y)
    (all : ∀ x ∈ xs, plain x) (all' : ∀ y ∈ ys, plain y) : xs = ys := by
  induction same with
  | nil => rfl
  | cons first _ ih =>
    obtain ⟨here, others⟩ := List.forall_mem_cons.mp all
    obtain ⟨here', others'⟩ := List.forall_mem_cons.mp all'
    rw [eq _ _ first here here', ih others others']

theorem mem_optionNames_of_goesOn
    (further : GoesOn os image command (options d) image' command') : image ∈ optionNames := by
  obtain ⟨text, more, split, -⟩ := further
  have member : (image, text) ∈ options d := by
    rw [split]
    exact List.mem_append_right os List.mem_cons_self
  simp only [options, each, List.mem_append, List.mem_map, Prod.mk.injEq] at member
  unfold optionNames
  rcases member with (⟨_, -, rfl, -⟩ | ⟨_, -, rfl, -⟩) | ⟨_, -, rfl, -⟩ <;> decide

/-- Two containers have the same arguments exactly if they are confused. Where no image is the name of an
option, the arguments determine image, command and working directory; and they determine the variables
and the mounts as well where no name holds an equals sign, and no kind or source of a mount holds what
is written after it. -/
theorem createArgs_determines (c d : ContainerSpec) :
    (createArgs c = createArgs d ↔ Confused c d) ∧
    (c.image ∉ optionNames → d.image ∉ optionNames → createArgs c = createArgs d →
      c.image = d.image ∧ c.command = d.command ∧ c.workingDir = d.workingDir ∧
      (HasPlainNames c → HasPlainNames d → c.env = d.env) ∧
      (HasPlainMounts c → HasPlainMounts d → c.mounts = d.mounts)) := by
  refine ⟨createArgs_eq_iff, fun known known' same => ?_⟩
  rcases createArgs_eq_iff.mp same with ⟨image, command, workingDir, env, mounts⟩ | further | further
  · refine ⟨image, command, workingDir, fun plain plain' => Bindings.ext ?_, fun plain plain' => ?_⟩
    · exact eq_of_forall₂ env (fun e e' => eq_of_recut) plain plain'
    · exact eq_of_forall₂ mounts (fun m m' => MountsAlike.eq) plain plain'
  · exact absurd (mem_optionNames_of_goesOn further) known
  · exact absurd (mem_optionNames_of_goesOn further) known'

/-- A container of a step that shows the workspace. -/
def stepping (workspace : String) (env : List (String × String)) : ContainerSpec :=
  ⟨"alpine:3", ["sh", "-c", "make"], .ofList env, Platform.workspaceMount,
    [.bind workspace Platform.workspaceMount]⟩

theorem createArgs_determines_stepping :
    (stepping "/srv/a,b" [("A", "1=2")]).image ∉ optionNames ∧
      HasPlainNames (stepping "/srv/a,b" [("A", "1=2")]) ∧
      HasPlainNames (stepping "/srv/a,b" [("A", "1"), ("B", "=2")]) ∧
      createArgs (stepping "/srv/a,b" [("A", "1=2")]) ≠
        createArgs (stepping "/srv/a,b" [("A", "1"), ("B", "=2")]) := by
  have known : "alpine:3" ∉ optionNames := by decide
  have plain : HasPlainNames (stepping "/srv/a,b" [("A", "1=2")]) := by decide
  have plain' : HasPlainNames (stepping "/srv/a,b" [("A", "1"), ("B", "=2")]) := by decide
  refine ⟨known, plain, plain', fun same => ?_⟩
  obtain ⟨-, -, -, env, -⟩ := (createArgs_determines _ _).2 known known same
  exact absurd (env plain plain') (by decide)

/-- A name with an equals sign passes for the name before that sign, a source with a mark in it for a shorter
one, and the name of an option in place of an image for that option. So a step sets a variable again that
the platform has set before it. -/
theorem createArgs_confuses :
    (stepping "/repo" [("GITHUB_ACTOR", "eve=x")] ≠ stepping "/repo" [("GITHUB_ACTOR=eve", "x")] ∧
      createArgs (stepping "/repo" [("GITHUB_ACTOR", "eve=x")]) =
        createArgs (stepping "/repo" [("GITHUB_ACTOR=eve", "x")])) ∧
    (stepping "/srv/a,target=/b" [] ≠
        { stepping "/srv/a" [] with mounts := [.bind "/srv/a" "/b,target=/github/workspace"] } ∧
      createArgs (stepping "/srv/a,target=/b" []) = createArgs
        { stepping "/srv/a" [] with mounts := [.bind "/srv/a" "/b,target=/github/workspace"] }) ∧
    ((⟨"alpine:3", [], ∅, "/w", []⟩ : ContainerSpec) ≠ ⟨"--workdir", ["/w", "alpine:3"], ∅, "", []⟩ ∧
      createArgs ⟨"alpine:3", [], ∅, "/w", []⟩ =
        createArgs ⟨"--workdir", ["/w", "alpine:3"], ∅, "", []⟩) ∧
    ["--env", "GITHUB_ACTOR=actrun", "--env", "GITHUB_ACTOR=eve=x"] <:+:
      createArgs (Run.commandSpec .standard (.initial "/repo" none) { (default : Step) with
        run := "make", env := .ofList [("GITHUB_ACTOR", "me"), ("GITHUB_ACTOR=eve", "x")] }) := by
  decide +kernel

end Containers

end Docker

end Drydock
