import Drydock.Expr.Eval
import Drydock.Proofs.Expr.Exactness
import Drydock.Proofs.Expr.Places

set_option autoImplicit false
set_option relaxedAutoImplicit false

/-!
Texts that state a condition, and how larger ones are put together from them. Main statements: a
text that is parsed states its tree and goes on stating it without the blanks around it;
parentheses, a negation, an operator and a call make of texts that state trees a text that states
the larger tree.
-/

namespace Drydock.Expr

open Text (isAsciiDigit isBlank)

/-- The tokens of a text write a tree. -/
def States (text : String) (t : Tree) : Prop :=
  ∃ ks, Lexes text.toList ks ∧ Writes ks t

/-- A name that is no keyword. -/
structure IsName (name : String) : Prop where
  letters : ∃ c r, name.toList = c :: r ∧ beginsName c = true ∧ r.all continuesName = true
  plain : wordKind name.toList = .ident name

section Lexing

variable {c : Char} {r : List Char} {k : Kind} {ks : List Kind}

/-- A character that is a token of its own. -/
theorem Lexes.single (visible : isBlank c = false) (alone : r.head?.bind (pairOperator? c) = none)
    (single : singleKind? c = some k) (rest : Lexes r ks) : Lexes (c :: r) (k :: ks) := by
  have here : lexeme c r = .ok (k, 0) := by simp only [lexeme, alone, single]
  exact .token visible here rest

theorem Lexes.lparen (rest : Lexes r ks) : Lexes ('(' :: r) (.lparen :: ks) :=
  rest.single (by decide) (by cases r <;> simp [pairOperator?]) rfl

theorem Lexes.rparen (rest : Lexes r ks) : Lexes (')' :: r) (.rparen :: ks) :=
  rest.single (by decide) (by cases r <;> simp [pairOperator?]) rfl

theorem Lexes.comma (rest : Lexes r ks) : Lexes (',' :: r) (.comma :: ks) :=
  rest.single (by decide) (by cases r <;> simp [pairOperator?]) rfl

theorem Lexes.enclosed {cs : List Char} (inside : Lexes cs ks) :
    Lexes ('(' :: (cs ++ [')'])) (.lparen :: (ks ++ [.rparen])) :=
  .lparen (inside.append separates_rparen (.rparen .nil))

theorem Lexes.operator (op : Operator) (rest : Lexes (' ' :: r) ks) :
    Lexes (op.symbol.toList ++ ' ' :: r) (.operator op :: ks) := by
  cases op <;> exact .token (by decide) rfl rest

theorem continuesName_of_beginsName (begins : beginsName c = true) : continuesName c = true := by
  simp only [beginsName, continuesName, Bool.or_eq_true] at begins ⊢
  rcases begins with letter | line
  · exact .inl (.inl (Text.isLetterOrNumeral_of_isLetter letter))
  · exact .inl (.inr line)

theorem isBlank_of_beginsName (begins : beginsName c = true) : isBlank c = false := by
  by_contra blank
  have word := (separates_of_isBlank (Bool.not_eq_false _ ▸ blank)).word
  exact absurd (word.symm.trans (continuesName_of_beginsName begins)) Bool.false_ne_true

theorem isAsciiDigit_of_beginsName (begins : beginsName c = true) : isAsciiDigit c = false := by
  have apart : ∀ n ∈ List.range' 48 10, beginsName (Char.ofNat n) = false := by decide +kernel
  by_contra digit
  obtain ⟨low, high⟩ := isAsciiDigit_iff.mp (Bool.not_eq_false _ ▸ digit)
  have other := apart c.toNat (List.mem_range'_1.mpr ⟨low, by omega⟩)
  rw [Char.ofNat_toNat] at other
  exact absurd (other.symm.trans begins) Bool.false_ne_true

/-- What begins a name begins no sign. -/
theorem not_sign_of_beginsName (begins : beginsName c = true) :
    (∀ d, pairOperator? c d = none) ∧ singleKind? c = none ∧ c ≠ '\'' ∧ c ≠ '-' := by
  have other : ∀ sign, beginsName sign = false → c ≠ sign := by
    rintro sign ends rfl
    exact absurd (ends.symm.trans begins) Bool.false_ne_true
  refine ⟨fun d => ?_, ?_, other _ (by decide), other _ (by decide)⟩
  · simp only [pairOperator?]
    split
    case h_7 => rfl
    all_goals exact absurd rfl (other _ (by decide))
  · simp only [singleKind?]
    split
    case h_7 => rfl
    all_goals exact absurd rfl (other _ (by decide))

/-- A character that begins a name and those that continue it are a token. -/
theorem lexeme_word (begins : beginsName c = true) (continues : r.all continuesName = true) :
    lexeme c r = .ok (wordKind (c :: r), r.length) := by
  obtain ⟨pair, single, quote, minus⟩ := not_sign_of_beginsName begins
  have alone : r.head?.bind (pairOperator? c) = none := by
    cases r with
    | nil => rfl
    | cons d r => exact pair d
  have all : r.takeWhile continuesName = r :=
    List.takeWhile_eq_self_iff.mpr (List.all_eq_true.mp continues)
  have digit := isAsciiDigit_of_beginsName begins
  simp [lexeme, alone, single, quote, minus, digit, begins, all]

theorem IsName.lexes {name : String} (named : IsName name) : Lexes name.toList [.ident name] := by
  obtain ⟨c, r, whole, begins, continues⟩ := named.letters
  have plain := named.plain
  rw [whole] at plain ⊢
  have here : lexeme c r = .ok (.ident name, r.length) := by
    rw [lexeme_word begins continues, plain]
  exact .token (isBlank_of_beginsName begins) here (by simpa using .nil)

end Lexing

section Grammar

variable {t : Tree} {ks : List Kind} {next : Kind}

/-- The level on which an operator stands between operands. -/
def Operator.level : Operator → Level
  | .or => .disjunction
  | .and => .conjunction
  | .eq | .ne => .equality
  | .lt | .gt | .le | .ge => .relation

theorem Derives.of_negation (derived : Derives (.tree .negation t) ks next) (l : Level)
    (loose : l ≠ .primary) : Derives (.tree l t) ks next := by
  have relation : Derives (.tree .relation t) ks next := .operand rfl derived
  have equality : Derives (.tree .equality t) ks next := .operand rfl relation
  have conjunction : Derives (.tree .conjunction t) ks next := .operand rfl equality
  cases l with
  | disjunction => exact .operand rfl conjunction
  | conjunction => exact conjunction
  | equality => exact equality
  | relation => exact relation
  | negation => exact derived
  | primary => exact absurd rfl loose

theorem Derives.of_primary (derived : Derives (.tree .primary t) ks next) (l : Level) :
    Derives (.tree l t) ks next := by
  by_cases tight : l = .primary
  · exact tight ▸ derived
  · exact (Derives.operand rfl derived : Derives (.tree .negation t) ks next).of_negation l tight

theorem Derives.disjunction_of_operation {op : Operator}
    (derived : Derives (.tree op.level t) ks next) : Derives (.tree .disjunction t) ks next := by
  have conjunction (derived : Derives (.tree .conjunction t) ks next) :
      Derives (.tree .disjunction t) ks next := .operand rfl derived
  have equality (derived : Derives (.tree .equality t) ks next) :
      Derives (.tree .disjunction t) ks next := conjunction (.operand rfl derived)
  cases op with
  | or => exact derived
  | and => exact conjunction derived
  | eq | ne => exact equality derived
  | lt | gt | le | ge => exact equality (.operand rfl derived)

theorem Writes.group (writes : Writes ks t) (next : Kind) :
    Derives (.tree .primary t) (.lparen :: (ks ++ [.rparen])) next :=
  .group next (writes.of_next (by decide))

/-- Two groups with an operator between them write its operation. -/
theorem Writes.operation {op : Operator} {left right : Tree} {ls rs : List Kind}
    (first : Writes ls left) (second : Writes rs right) :
    Writes (.lparen :: (ls ++ [.rparen]) ++ .operator op :: .lparen :: (rs ++ [.rparen]))
      (.binary op left right) := by
  have operand : ∃ inner, op.level.operand? = some inner := by cases op <;> exact ⟨_, rfl⟩
  obtain ⟨inner, below⟩ := operand
  have joins : op ∈ op.level.operators := by cases op <;> decide
  exact (Derives.operation below joins ((first.group _).of_primary _)
    ((second.group _).of_primary _)).disjunction_of_operation

end Grammar

section Texts

variable {text : String} {t : Tree}

theorem states_of_parse (read : parse text = .ok t) : States text t := by
  simp only [parse] at read
  split at read
  · cases read
  · rename_i tokens lexed
    obtain ⟨lexes, readable, -⟩ := tokens_of_tokenize lexed
    exact ⟨_, lexes, writes_of_parseTokens readable read⟩

theorem States.exists_tokens (states : States text t) : ∃ tokens, tokenize text = .ok tokens ∧
    parse text = parseTokens tokens ∧ Writes (beforeEnd tokens) t := by
  obtain ⟨ks, lexes, writes⟩ := states
  obtain ⟨tokens, lexed, -⟩ := lexes.exists_tokens 0
  have same := lexes.unique (tokens_of_tokenize lexed).1
  have lexed : tokenize text = .ok tokens := lexed
  exact ⟨tokens, lexed, by simp only [parse, lexed], same ▸ writes⟩

theorem States.parse_eq (states : States text t) (accepted : ¬TooDeep (parse text)) :
    parse text = .ok t := by
  obtain ⟨tokens, lexed, whole, writes⟩ := states.exists_tokens
  rw [whole] at accepted ⊢
  exact parseTokens_of_writes lexed accepted writes

theorem lexeme_dollar (r : List Char) : lexeme '$' r = .error (.unexpectedChar '$') := by
  have alone : r.head?.bind (pairOperator? '$') = none := by cases r <;> simp [pairOperator?]
  have digit : isAsciiDigit '$' = false := by decide
  have letter : beginsName '$' = false := by decide
  simp [lexeme, alone, singleKind?, digit, letter]

theorem Lexes.head_ne_dollar {cs : List Char} {ks : List Kind} (lexes : Lexes cs ks) :
    cs.head? ≠ some '$' := by
  intro dollar
  cases lexes with
  | nil => cases dollar
  | blank skipped =>
    obtain rfl := Option.some.inj dollar
    exact absurd skipped (by decide)
  | @token _ r _ _ _ _ here =>
    obtain rfl := Option.some.inj dollar
    cases (lexeme_dollar r).symm.trans here

theorem unwrapped?_eq_some_iff {cs inner : List Char} :
    unwrapped? cs = some inner ↔ cs = "$\x7b\x7b".toList ++ inner ++ "\x7d\x7d".toList := by
  simp only [unwrapped?, Option.bind_eq_bind, Option.bind_eq_some_iff, Text.after?_eq_some_iff,
    Option.pure_def, Option.some.injEq]
  constructor
  · rintro ⟨rest, rfl, reversed, closes, rfl⟩
    rw [List.append_assoc, ← List.reverse_reverse rest, closes, List.reverse_append]
    rfl
  · rintro rfl
    refine ⟨inner ++ "\x7d\x7d".toList, List.append_assoc .., inner.reverse, ?_, List.reverse_reverse inner⟩
    rw [List.reverse_append]
    rfl

/-- A text that states a condition has no wrapper around it. -/
theorem Lexes.stripWrapper_eq {ks : List Kind} (lexes : Lexes text.toList ks) :
    stripWrapper text = String.ofList (Text.trim text.toList) := by
  have unwrapped : unwrapped? (Text.trim text.toList) = none := by
    cases found : unwrapped? (Text.trim text.toList) with
    | none => rfl
    | some inner =>
      exact absurd (by rw [unwrapped?_eq_some_iff.mp found]; rfl) lexes.trim.head_ne_dollar
  simp only [stripWrapper, unwrapped]

theorem States.strip (states : States text t) :
    States (stripWrapper text) t ∧ stripWrapper text ≠ "" := by
  obtain ⟨ks, lexes, writes⟩ := states
  have trimmed : Lexes (stripWrapper text).toList ks := by
    rw [lexes.stripWrapper_eq, String.toList_ofList]
    exact lexes.trim
  refine ⟨⟨ks, trimmed, writes⟩, ?_⟩
  intro empty
  rw [empty] at trimmed
  exact writes.isRow.ne_nil (trimmed.unique .nil)

/-- What a text is parsed as it is parsed as without the blanks around it. -/
theorem parse_stripWrapper (read : parse text = .ok t) : parse (stripWrapper text) = .ok t := by
  obtain ⟨ks, lexes, writes⟩ := states_of_parse read
  obtain ⟨tokens, lexed, kinds⟩ := lexes.exists_tokens 0
  obtain ⟨tokens', lexed', kinds'⟩ := lexes.trim.exists_tokens 0
  rw [← String.toList_ofList (l := Text.trim text.toList), ← lexes.stripWrapper_eq] at lexed'
  simp only [parse, tokenize, lexed, lexed'] at read ⊢
  exact parseTokens_congr (kinds.trans kinds'.symm) read

theorem States.group (states : States text t) : States ("(" ++ text ++ ")") t := by
  obtain ⟨ks, lexes, writes⟩ := states
  exact ⟨_, by simpa using lexes.enclosed, (writes.group .eof).of_primary _⟩

theorem States.negation (states : States text t) : States ("!(" ++ text ++ ")") (.not t) := by
  obtain ⟨ks, lexes, writes⟩ := states
  have negated :
      Lexes ('!' :: '(' :: (text.toList ++ [')'])) (.not :: .lparen :: (ks ++ [.rparen])) :=
    lexes.enclosed.single (by decide) rfl rfl
  have derived := (writes.group .eof).of_primary .negation
  exact ⟨_, by simpa using negated, derived.negation.of_negation _ (by decide)⟩

theorem States.operation {left right : String} {x y : Tree} (first : States left x)
    (second : States right y) (op : Operator) :
    States ("(" ++ left ++ ") " ++ op.symbol ++ " (" ++ right ++ ")") (.binary op x y) := by
  obtain ⟨ls, lexes, writes⟩ := first
  obtain ⟨rs, lexes', writes'⟩ := second
  have blank : Separates ' ' := separates_of_isBlank (by decide)
  have after := Lexes.operator op (.blank (by decide) lexes'.enclosed)
  have whole := lexes.enclosed.append blank (.blank (by decide) after)
  exact ⟨_, by simpa using whole, writes.operation writes'⟩

/-- Texts that state conditions, with commas between them, state the arguments of a call. -/
theorem exists_arguments {texts : List String} {ts : List Tree}
    (states : List.Forall₂ States texts ts) (some : texts ≠ []) :
    ∃ ks, Lexes (",".intercalate texts).toList ks ∧ Derives (.arguments ts) ks .rparen := by
  induction states with
  | nil => exact absurd rfl some
  | @cons text t texts ts first others ih =>
    obtain ⟨ks, lexes, writes⟩ := first
    cases others with
    | nil => exact ⟨ks, by simpa using lexes, .lastArgument (writes.of_next (by decide))⟩
    | cons =>
      obtain ⟨rs, lexes', derived⟩ := ih (List.cons_ne_nil _ _)
      have whole := lexes.append separates_comma lexes'.comma
      exact ⟨_, by simpa using whole, .argument (writes.of_next (by decide)) derived⟩

theorem States.call {name : String} (named : IsName name) {texts : List String} {ts : List Tree}
    (states : List.Forall₂ States texts ts) :
    States (name ++ "(" ++ ",".intercalate texts ++ ")") (.call name ts) := by
  cases texts with
  | nil =>
    cases states
    have whole := named.lexes.append separates_lparen (.lparen (.rparen .nil))
    exact ⟨_, by simpa using whole, (Derives.emptyCall name .eof).of_primary _⟩
  | cons =>
    obtain ⟨ks, lexes, derived⟩ := exists_arguments states (List.cons_ne_nil _ _)
    have whole := named.lexes.append separates_lparen lexes.enclosed
    exact ⟨_, by simpa using whole, (derived.call name .eof).of_primary _⟩

end Texts

end Drydock.Expr
