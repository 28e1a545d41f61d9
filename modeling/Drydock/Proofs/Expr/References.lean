import Drydock.Proofs.Bindings
import Drydock.Proofs.Expr.Composition
import Drydock.Proofs.Expr.Paths
import Drydock.Proofs.Reference
import Mathlib

set_option autoImplicit false
set_option relaxedAutoImplicit false

/-!
References read as conditions. A reference admits any name without points and blanks, a condition only
letters, numerals and underscores. Main statement: a text that writes a reference has, as a condition,
the text that the reference stands for, whatever the data, exactly if its names are of such characters.
-/

namespace Drydock

namespace Text

variable {cs w : List Char}

theorem isBlank_of_words_eq_nil (none : words cs = []) : ∀ c ∈ cs, isBlank c = true := by
  fun_induction words cs with
  | case1 => simp
  | case2 c r blank ih => exact List.forall_mem_cons.mpr ⟨blank, ih none⟩
  | case3 | case4 => cases none
  | case5 c _ d r _ rest | case6 c _ d r _ v others rest =>
    rw [rest] at none
    cases none

/-- A text with one word is that word with blanks around it. -/
theorem exists_of_words_eq_singleton (one : words cs = [w]) :
    ∃ before after, cs = before ++ (w ++ after) ∧ (∀ c ∈ before, isBlank c = true) ∧
      ∀ c ∈ after, isBlank c = true := by
  fun_induction words cs generalizing w with
  | case1 => cases one
  | case2 c r blank ih =>
    obtain ⟨before, after, rfl, onLeft, onRight⟩ := ih one
    exact ⟨c :: before, after, rfl, List.forall_mem_cons.mpr ⟨blank, onLeft⟩, onRight⟩
  | case3 c =>
    cases one
    exact ⟨[], [], rfl, by simp, by simp⟩
  | case4 c _ d r blank =>
    obtain ⟨rfl, none⟩ := List.cons.inj one
    exact ⟨[], d :: r, rfl, by simp, isBlank_of_words_eq_nil none⟩
  | case5 c _ d r solid none =>
    exact absurd (isBlank_of_words_eq_nil none d List.mem_cons_self) solid
  | case6 c _ d r solid v others rest ih =>
    rw [rest] at one
    obtain ⟨rfl, rfl⟩ := List.cons.inj one
    obtain ⟨before, after, whole, onLeft, onRight⟩ := ih rest
    -- the word goes on with `d`, so that no blank stands before the rest of it
    cases before with
    | nil => exact ⟨[], after, by rw [whole]; rfl, by simp, onRight⟩
    | cons x before =>
      obtain ⟨rfl, -⟩ := List.cons.inj whole
      exact absurd (onLeft d List.mem_cons_self) solid

end Text

namespace Expr

open Text (isBlank)

variable {cs : List Char} {ks : List Kind} {name text : String} {lookup : String → Option Value}

section Names

theorem wordKind_of_point {word : List Char} (point : '.' ∈ word) :
    wordKind word = .ident (String.ofList word) := by
  have kept : '.' ∈ word.map Char.toLower := List.mem_map.mpr ⟨'.', point, rfl⟩
  have other {keyword : String} (plain : '.' ∉ keyword.toList) :
      word.map Char.toLower ≠ keyword.toList :=
    fun same => plain (same ▸ kept)
  rw [wordKind, if_neg (other (by decide)), if_neg (other (by decide)), if_neg (other (by decide))]

/-- A name with a point in it is no keyword. -/
theorem isName_of_point {c : Char} {r : List Char} (whole : name.toList = c :: r)
    (begins : beginsName c = true) (continues : r.all continuesName = true) (point : '.' ∈ r) :
    IsName name := by
  refine ⟨⟨c, r, whole, begins, continues⟩, ?_⟩
  have inside : '.' ∈ name.toList := whole ▸ List.mem_cons_of_mem c point
  rw [wordKind_of_point inside, String.ofList_toList]

theorem lexes_blanks (blank : ∀ c ∈ cs, isBlank c = true) : Lexes cs [] := by
  induction cs with
  | nil => exact .nil
  | cons c r ih =>
    obtain ⟨first, rest⟩ := List.forall_mem_cons.mp blank
    exact .blank first (ih rest)

theorem Lexes.after_blanks {before : List Char} (blank : ∀ c ∈ before, isBlank c = true)
    (lexes : Lexes cs ks) : Lexes (before ++ cs) ks := by
  induction before with
  | nil => exact lexes
  | cons c r ih =>
    obtain ⟨first, rest⟩ := List.forall_mem_cons.mp blank
    exact .blank first (ih rest)

theorem Lexes.before_blanks {after : List Char} (blank : ∀ c ∈ after, isBlank c = true)
    (lexes : Lexes cs ks) : Lexes (cs ++ after) ks := by
  cases after with
  | nil => simpa using lexes
  | cons d s =>
    have apart : Separates d := separates_of_isBlank (blank d List.mem_cons_self)
    simpa using lexes.append apart (lexes_blanks blank)

/-- A text whose only token is a name comes to what the name leads to. -/
theorem evaluate_of_lexes_name (lexes : Lexes text.toList [.ident name])
    (short : ((lookup name).getD .null).isWritable = true) :
    evaluate lookup text = .ok (.of name ((lookup name).getD .null)) := by
  have states : States text (.path name) :=
    ⟨_, lexes, (Derives.path name (by decide)).of_primary .disjunction⟩
  obtain ⟨tokens, lexed, kinds⟩ := lexes.exists_tokens 0
  have shallow : IsShallow (tokens.map Token.kind) := by
    rw [kinds]
    exact (by decide : 0 + 2 ≤ depthLimit)
  have accepted : ¬TooDeep (parse text) := by
    have tokenized : tokenize text = .ok tokens := lexed
    simp only [parse, tokenized]
    exact tooDeep_parseTokens_iff.not.mpr (not_tooDeep_of_isShallow shallow)
  have budget : depthLimit = 999 + 1 := rfl
  rw [evaluate_of_parse states.strip.2 (parse_stripWrapper (states.parse_eq accepted)), budget, eval,
    if_pos short]
  rfl

end Names

section Paths

theorem continuesName_of_lexeme {c : Char} {r : List Char} {extra : Nat}
    (here : lexeme c r = .ok (.ident name, extra)) : ∀ d ∈ name.toList, continuesName d = true := by
  simp only [lexeme] at here
  split at here
  · cases here
  · split at here
    · rename_i single
      cases here
      simp only [singleKind?] at single
      split at single <;> cases single
    · split_ifs at here with _ _ _ begins
      · cases here
      · cases here
      · have named : wordKind (c :: r.takeWhile continuesName) = .ident name :=
          congrArg Prod.fst (Except.ok.inj here)
        rw [wordKind] at named
        split_ifs at named
        cases named
        rw [String.toList_ofList]
        refine List.forall_mem_cons.mpr ⟨continuesName_of_beginsName begins, ?_⟩
        exact fun d member => List.mem_takeWhile_imp member

theorem Lexes.continuesName (lexes : Lexes cs ks) (member : .ident name ∈ ks) :
    ∀ c ∈ name.toList, continuesName c = true := by
  induction lexes with
  | nil => cases member
  | blank _ _ ih => exact ih member
  | token _ here _ ih =>
    rcases List.mem_cons.mp member with rfl | later
    · exact continuesName_of_lexeme here
    · exact ih later

/-- The paths in a phrase. -/
def Phrase.paths : Phrase → List String
  | .tree _ t => t.paths
  | .arguments ts => Tree.pathsOfAll ts

/-- The paths in a phrase are among the names in the tokens that write it. -/
theorem Derives.ident_mem {p : Phrase} {next : Kind} (derived : Derives p ks next)
    (path : name ∈ p.paths) : .ident name ∈ ks := by
  induction derived with
  | operand _ _ ih => exact ih path
  | operation _ _ _ _ first second =>
    rcases List.mem_append.mp path with left | right
    · exact List.mem_append_left _ (first left)
    · exact List.mem_append_right _ (List.mem_cons_of_mem _ (second right))
  | negation _ ih => exact List.mem_cons_of_mem _ (ih path)
  | text | number | bool | null | emptyCall => cases path
  | path =>
    obtain rfl := List.mem_singleton.mp path
    exact List.mem_cons_self
  | call _ _ _ ih =>
    exact List.mem_cons_of_mem _ (List.mem_cons_of_mem _ (List.mem_append_left _ (ih path)))
  | group _ _ ih => exact List.mem_cons_of_mem _ (List.mem_append_left _ (ih path))
  | lastArgument _ ih => exact ih (by simpa [Phrase.paths, Tree.pathsOfAll] using path)
  | argument _ _ first others =>
    rcases List.mem_append.mp path with here | later
    · exact List.mem_append_left _ (first here)
    · exact List.mem_append_right _ (List.mem_cons_of_mem _ (others later))

/-- A path in a condition holds no other characters than a name may go on with. -/
theorem continuesName_of_mem_paths (path : name ∈ paths text) :
    ∀ c ∈ name.toList, continuesName c = true := by
  unfold paths at path
  split at path
  · rename_i tree read
    obtain ⟨ks, lexes, writes⟩ := states_of_parse read
    exact lexes.continuesName (writes.ident_mem path)
  · cases path

end Paths

end Expr

/-- Conditions see the variables and the outputs of steps that references stand for. -/
structure Context.Holds (c : Context) (outputs : Bindings (Bindings String)) (env : Bindings String) :
    Prop where
  env : c.env = env
  outputs : ∀ id, (c.steps.get? id).map Completion.outputs = outputs.get? id

namespace Reference

open Text (isLetterOrNumeral splitAtChar words)

/-- A name of letters, numerals and underscores only. -/
def IsWord (name : String) : Prop :=
  ∀ c ∈ name.toList, (isLetterOrNumeral c || c == '_') = true

/-- The names that a reference leaves open. -/
def names : Reference → List String
  | output step name => [step, name]
  | env name => [name]

/-- A reference cut at its points. -/
def segments : Reference → List String
  | output step name => ["steps", step, "outputs", name]
  | env name => ["env", name]

theorem names_subset (r : Reference) : r.names ⊆ r.segments := by
  cases r <;> simp [names, segments]

/-- What data of conditions hold for a reference. -/
def find? (c : Context) : Reference → Option String
  | output step name => (c.steps.get? step).bind fun done => done.outputs.get? name
  | env name => c.env.get? name

variable {r : Reference} {text : String} {cs : List Char}

theorem find?_of_holds {c : Context} {outputs : Bindings (Bindings String)} {env : Bindings String}
    (holds : c.Holds outputs env) (r : Reference) : (r.find? c).getD "" = r.value outputs env := by
  cases r with
  | output step name =>
    rw [value, ← holds.outputs, find?]
    cases c.steps.get? step <;> rfl
  | env name => rw [value, ← holds.env, find?]

section Reading

theorem toList_spelling (r : Reference) :
    r.spelling.toList = ['.'].intercalate (r.segments.map String.toList) := by
  cases r <;> simp [spelling, segments, List.intercalate_cons_cons]

theorem segments_of_ofSegments? {parts : List (List Char)} (read : ofSegments? parts = some r) :
    parts = r.segments.map String.toList ∧ [] ∉ parts := by
  unfold ofSegments? at read
  split at read
  · split_ifs at read with shape
    obtain ⟨rfl, rfl, step, name⟩ := shape
    cases read
    simp [segments, step.symm, name.symm]
  · split_ifs at read with shape
    obtain ⟨rfl, name⟩ := shape
    cases read
    simp [segments, name.symm]
  · cases read

/-- A text that writes a reference is its spelling with blanks around it, and as a path its spelling
has the segments of the reference. -/
theorem spelling_of_parse? (read : parse? cs = some r) :
    words cs = [r.spelling.toList] ∧ Context.segments r.spelling = r.segments := by
  unfold parse? at read
  split at read
  · rename_i word one
    obtain ⟨parts, solid⟩ := segments_of_ofSegments? read
    have spelled : r.spelling.toList = word := by
      rw [toList_spelling, ← parts, Text.intercalate_splitAtChar]
    have kept : (splitAtChar '.' word).filter (· ≠ []) = splitAtChar '.' word := by
      refine List.filter_eq_self.mpr fun p member => ?_
      simpa using ne_of_mem_of_not_mem member solid
    refine ⟨by rw [spelled]; exact one, ?_⟩
    rw [Context.segments, spelled, kept, parts, List.map_map]
    simp [Function.comp_def]
  · cases read

end Reading

section Agreeing

theorem isName_spelling (word : ∀ name ∈ r.names, IsWord name) : Expr.IsName r.spelling := by
  have goes : ∀ name ∈ r.names, name.toList.all Expr.continuesName = true := by
    intro name member
    refine List.all_eq_true.mpr fun c inside => ?_
    simp only [Expr.continuesName, word name member c inside, Bool.true_or]
  cases r with
  | output step name =>
    obtain ⟨first, others⟩ := List.forall_mem_cons.mp goes
    have second := others name List.mem_cons_self
    have whole : (output step name).spelling.toList =
        's' :: ("teps.".toList ++ (step.toList ++ (".outputs.".toList ++ name.toList))) := by
      simp [spelling]
    have fixed : "teps.".toList.all Expr.continuesName = true := by decide
    have fixed' : ".outputs.".toList.all Expr.continuesName = true := by decide
    refine Expr.isName_of_point whole (by decide) ?_ (by simp)
    simp only [List.all_append, fixed, first, fixed', second, Bool.and_true]
  | env name =>
    have own := goes name List.mem_cons_self
    have whole : (env name).spelling.toList = 'e' :: ("nv.".toList ++ name.toList) := by
      simp [spelling]
    have fixed : "nv.".toList.all Expr.continuesName = true := by decide
    refine Expr.isName_of_point whole (by decide) ?_ (by simp)
    simp only [List.all_append, fixed, own, Bool.and_true]

theorem lookup_spelling (read : parse? text.toList = some r) (c : Context) :
    c.lookup r.spelling = (r.find? c).map .text := by
  rw [Context.lookup, (spelling_of_parse? read).2]
  cases r with
  | output step name =>
    cases recorded : c.steps.get? step <;>
      simp [segments, find?, Context.lookupSegments, Completion.lookup, recorded]
  | env name => rfl

theorem evaluate_of_isWord (read : parse? text.toList = some r)
    (word : ∀ name ∈ r.names, IsWord name) (c : Context) :
    ∃ outcome, Expr.evaluate c.lookup text = .ok outcome ∧
      Expr.asText outcome.value = (r.find? c).getD "" := by
  obtain ⟨before, after, whole, onLeft, onRight⟩ :=
    Text.exists_of_words_eq_singleton (spelling_of_parse? read).1
  have lexes : Expr.Lexes text.toList [.ident r.spelling] := by
    rw [whole]
    exact ((isName_spelling word).lexes.before_blanks onRight).after_blanks onLeft
  have found : c.lookup r.spelling = (r.find? c).map .text := lookup_spelling read c
  refine ⟨_, Expr.evaluate_of_lexes_name lexes ?_, ?_⟩
  · rw [found]
    cases r.find? c <;> rfl
  · rw [found]
    cases r.find? c <;> rfl

end Agreeing

section Disagreeing

variable {path : String}

/-- The output or the variable that a reference names, with a text, and no other. -/
def givenOutputs (v : String) : Reference → Bindings (Bindings String)
  | output step name => .ofList [(step, .ofList [(name, v)])]
  | env _ => ∅

def givenEnv (v : String) : Reference → Bindings String
  | output _ _ => ∅
  | env name => .ofList [(name, v)]

def given (v : String) : Reference → Context
  | output step name => { Context.empty with steps := .ofList [(step, ⟨"", .ofList [(name, v)]⟩)] }
  | env name => { Context.empty with env := .ofList [(name, v)] }

theorem holds_given (r : Reference) (v : String) :
    (r.given v).Holds (r.givenOutputs v) (r.givenEnv v) := by
  cases r with
  | output step name =>
    refine ⟨rfl, fun id => ?_⟩
    simp only [given, givenOutputs, Bindings.get?_ofList_singleton]
    split <;> rfl
  | env name => exact ⟨rfl, fun _ => rfl⟩

theorem value_given (r : Reference) (v : String) : r.value (r.givenOutputs v) (r.givenEnv v) = v := by
  cases r <;> simp [value, givenOutputs, givenEnv, Bindings.get?_ofList_singleton]

/-- The text of a reference is found under its own segments only. -/
theorem lookupSegments_given {parts : List String} (other : parts ≠ r.segments) (v v' : String) :
    (r.given v).lookupSegments parts = (r.given v').lookupSegments parts := by
  cases r with
  | output step name =>
    unfold Context.lookupSegments
    split
    case h_6 id rest =>
      simp only [given, Bindings.get?_ofList_singleton]
      by_cases same : id = step
      · subst same
        simp only [if_true, Option.bind_some, Completion.lookup]
        split
        · rfl
        · rename_i key
          have apart : key ≠ name := fun same => other (same ▸ rfl)
          simp [Bindings.get?_ofList_singleton, apart]
        · rfl
      · rw [if_neg same, if_neg same]
    all_goals rfl
  | env name =>
    unfold Context.lookupSegments
    split
    case h_2 key =>
      have apart : key ≠ name := fun same => other (same ▸ rfl)
      simp [given, Bindings.get?_ofList_singleton, apart]
    all_goals rfl

/-- No path of a condition has a name among its segments that is not a word. -/
theorem segments_ne (read : path ∈ Expr.paths text) (strange : ∃ name ∈ r.names, ¬IsWord name) :
    Context.segments path ≠ r.segments := by
  rintro same
  obtain ⟨name, named, strange⟩ := strange
  have member : name ∈ Context.segments path := by
    rw [same]
    exact names_subset r named
  obtain ⟨part, kept, rfl⟩ := List.mem_map.mp member
  have inside : part ∈ splitAtChar '.' path.toList := List.mem_of_mem_filter kept
  refine strange fun c found => ?_
  rw [String.toList_ofList] at found
  obtain ⟨whole, point⟩ := Text.of_mem_splitAtChar inside found
  have goes := Expr.continuesName_of_mem_paths read c whole
  simpa [Expr.continuesName, point] using goes

/-- A text that writes a reference has a value as a condition in all data, and one that is written as
what the reference stands for, exactly if all names in the reference are words. -/
theorem evaluates_iff (read : parse? text.toList = some r) :
    (∀ (c : Context) (outputs : Bindings (Bindings String)) (env : Bindings String),
      c.Holds outputs env → ∃ outcome, Expr.evaluate c.lookup text = .ok outcome ∧
        Expr.asText outcome.value = r.value outputs env) ↔ ∀ name ∈ r.names, IsWord name := by
  constructor
  · intro agree
    by_contra strange
    push Not at strange
    have same : Expr.evaluate (r.given "").lookup text = Expr.evaluate (r.given "x").lookup text :=
      Expr.evaluate_congr fun path written => lookupSegments_given (segments_ne written strange) "" "x"
    obtain ⟨outcome, evaluated, empty⟩ := agree _ _ _ (holds_given r "")
    obtain ⟨outcome', evaluated', full⟩ := agree _ _ _ (holds_given r "x")
    obtain rfl : outcome = outcome' := by
      rw [same, evaluated'] at evaluated
      exact (Except.ok.inj evaluated).symm
    rw [value_given] at empty full
    exact absurd (empty.symm.trans full) (by decide)
  · intro word c outputs env holds
    obtain ⟨outcome, evaluated, text⟩ := evaluate_of_isWord read word c
    exact ⟨outcome, evaluated, text.trans (find?_of_holds holds r)⟩

/-- An output with a plain name, with blanks around the reference, is in all data what the condition
finds. -/
theorem evaluates_plain :
    parse? " steps.build.outputs.tag_1 ".toList = some (output "build" "tag_1") ∧
      ∀ (c : Context) (outputs : Bindings (Bindings String)) (env : Bindings String),
        c.Holds outputs env →
          ∃ outcome, Expr.evaluate c.lookup " steps.build.outputs.tag_1 " = .ok outcome ∧
            Expr.asText outcome.value = value outputs env (output "build" "tag_1") := by
  have read : parse? " steps.build.outputs.tag_1 ".toList = some (output "build" "tag_1") := by
    decide +kernel
  have word : ∀ name ∈ (output "build" "tag_1").names, IsWord name := by
    have step : "build".toList.all (fun c => isLetterOrNumeral c || c == '_') = true := by decide
    have name : "tag_1".toList.all (fun c => isLetterOrNumeral c || c == '_') = true := by decide
    intro s member
    simp only [names, List.mem_cons, List.not_mem_nil, or_false] at member
    rcases member with rfl | rfl
    · exact List.all_eq_true.mp step
    · exact List.all_eq_true.mp name
  exact ⟨read, (evaluates_iff read).mpr word⟩

set_option maxRecDepth 10000 in
/-- A variable with a hyphen in its name can be referred to and not be read by a condition. -/
theorem evaluate_hyphen :
    parse? "env.MY-VAR".toList = some (env "MY-VAR") ∧
      value ∅ (.ofList [("MY-VAR", "x")]) (env "MY-VAR") = "x" ∧
      ((env "MY-VAR").given "x").Holds ∅ (.ofList [("MY-VAR", "x")]) ∧
      Expr.evaluate ((env "MY-VAR").given "x").lookup "env.MY-VAR" =
        .error (.badSyntax ⟨.unexpectedChar '-', some 6⟩ "env.MY-VAR") :=
  ⟨by decide +kernel, value_given (env "MY-VAR") "x", holds_given (env "MY-VAR") "x", by cbv⟩

end Disagreeing

end Reference

end Drydock
