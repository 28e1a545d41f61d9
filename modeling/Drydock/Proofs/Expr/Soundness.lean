import Drydock.Expr.Parser
import Drydock.Proofs.Expr.Grammar

set_option autoImplicit false
set_option relaxedAutoImplicit false

/-!
What the parser reads is written. Main statement: a tree that is read off the front of tokens is
what the tokens taken off write.
-/

namespace Drydock.Expr

/-- The kind of the next token; where there is none, the end. -/
def nextKind (tokens : List Token) : Kind :=
  (tokens.head?.map Token.kind).getD .eof

/-- All numbers among tokens can be read. -/
def Readable (tokens : List Token) : Prop :=
  ∀ t ∈ tokens, ∀ digits, t.kind = .number digits → (Number.readFloat? digits.toList).isSome = true

/-- The kinds of tokens that are taken for operators of a level. -/
def Level.operator? : Level → Kind → Option Operator
  | .disjunction => orOperator?
  | .conjunction => andOperator?
  | .equality => equalityOperator?
  | .relation => relationOperator?
  | .negation | .primary => fun _ => none

theorem Level.operator?_eq_some_iff {l : Level} {k : Kind} {op : Operator} :
    l.operator? k = some op ↔ k = .operator op ∧ op ∈ l.operators := by
  cases l <;> cases k with
  | operator o => cases o <;> cases op <;> simp [Level.operator?, Level.operators, orOperator?,
      andOperator?, equalityOperator?, relationOperator?]
  | _ => simp [Level.operator?, orOperator?, andOperator?, equalityOperator?, relationOperator?]

@[simp] theorem nextKind_cons (t : Token) (r : List Token) : nextKind (t :: r) = t.kind := rfl

theorem nextKind_congr {tokens tokens' : List Token}
    (kinds : tokens.map Token.kind = tokens'.map Token.kind) :
    nextKind tokens = nextKind tokens' := by
  simp only [nextKind, ← List.head?_map, kinds]

theorem eq_cons_of_nextKind {tokens : List Token} {k : Kind} (first : nextKind tokens = k)
    (visible : k ≠ .eof) : ∃ position r, tokens = ⟨k, position⟩ :: r := by
  cases tokens with
  | nil => exact absurd first.symm visible
  | cons t r =>
    subst first
    exact ⟨t.position, r, rfl⟩

theorem Readable.of_append {ts rest : List Token} (readable : Readable (ts ++ rest)) :
    Readable rest :=
  fun t member => readable t (List.mem_append_right ts member)

theorem Readable.of_cons {t : Token} {rest : List Token} (readable : Readable (t :: rest)) :
    Readable rest :=
  fun x member => readable x (List.mem_cons_of_mem t member)

/-- What a reader takes off the front of tokens writes what it reads. -/
def Sound {α : Type} (reader : Reader α) (phrase : α → Phrase) : Prop :=
  ∀ tokens a rest, Readable tokens → reader tokens = .ok (a, rest) →
    ∃ ts, tokens = ts ++ rest ∧ Derives (phrase a) (ts.map Token.kind) (nextKind rest)

variable {outer inner : Level} {reader : Reader Tree}

theorem extend_sound (below : outer.operand? = some inner) (sound : Sound reader (.tree inner))
    {n : Nat} {left t : Tree} {ls tokens rest : List Token} (readable : Readable tokens)
    (first : Derives (.tree outer left) (ls.map Token.kind) (nextKind tokens))
    (read : extend outer.operator? reader n left tokens = .ok (t, rest)) :
    ∃ ts, tokens = ts ++ rest ∧
      Derives (.tree outer t) ((ls ++ ts).map Token.kind) (nextKind rest) := by
  induction n generalizing left ls tokens with
  | zero =>
    cases read
    exact ⟨[], rfl, by simpa using first⟩
  | succ n ih =>
    cases tokens with
    | nil =>
      cases read
      exact ⟨[], rfl, by simpa using first⟩
    | cons k r =>
      simp only [extend] at read
      split at read
      · cases read
        exact ⟨[], rfl, by simpa using first⟩
      · rename_i op isOperator
        obtain ⟨kind, joins⟩ := Level.operator?_eq_some_iff.mp isOperator
        split at read
        · cases read
        · rename_i right rest' second
          obtain ⟨rs, rfl, derived⟩ := sound r right rest' readable.of_cons second
          rw [nextKind_cons, kind] at first
          have whole := Derives.operation below joins first derived
          obtain ⟨ts, rfl, all⟩ := ih readable.of_cons.of_append
            (by simpa [kind] using whole : Derives _ ((ls ++ k :: rs).map Token.kind) _) read
          exact ⟨k :: (rs ++ ts), by simp, by simpa using all⟩

theorem level_sound (outer : Level) (below : outer.operand? = some inner)
    (sound : Sound reader (.tree inner)) : Sound (level outer.operator? reader) (.tree outer) := by
  intro tokens t rest readable read
  simp only [level] at read
  split at read
  · cases read
  · rename_i left rest' first
    obtain ⟨ls, rfl, derived⟩ := sound tokens left rest' readable first
    obtain ⟨ts, rfl, whole⟩ :=
      extend_sound below sound readable.of_append (.operand below derived) read
    exact ⟨ls ++ ts, by simp, whole⟩

/-- Arguments are read together with the parenthesis after them. -/
theorem arguments_sound (sound : Sound reader (.tree .disjunction)) {name : Token} {n : Nat}
    {args : List Tree} {tokens rest : List Token} (readable : Readable tokens)
    (read : arguments name reader n tokens = .ok (args, rest)) :
    ∃ ts stop, tokens = ts ++ stop :: rest ∧ stop.kind = .rparen ∧
      Derives (.arguments args) (ts.map Token.kind) .rparen := by
  induction n generalizing args tokens with
  | zero => cases read
  | succ n ih =>
    simp only [arguments] at read
    split at read
    · cases read
    · cases read
    · split at read
      · cases read
      · rename_i arg rest' first
        have taken := sound tokens arg rest' readable first
        split at read
        · rename_i position r
          obtain ⟨ks, rfl, derived⟩ := taken
          split at read
          · cases read
          · rename_i others _ second
            cases read
            obtain ⟨ts, stop, rfl, closing, more⟩ := ih readable.of_append.of_cons second
            exact ⟨ks ++ ⟨.comma, position⟩ :: ts, stop, by simp, closing,
              by simpa using derived.argument more⟩
        · cases read
          obtain ⟨ks, rfl, derived⟩ := taken
          exact ⟨ks, _, rfl, rfl, .lastArgument derived⟩
        · cases read
        · cases read
        · cases read

theorem primary_sound (sound : Sound reader (.tree .disjunction)) :
    Sound (primary reader) (.tree .primary) := by
  intro tokens t rest readable read
  cases tokens with
  | nil => cases read
  | cons k r =>
    simp only [primary] at read
    split at read
    · rename_i content kind
      cases read
      exact ⟨[k], rfl, by simpa [kind] using .text content _⟩
    · rename_i digits kind
      cases read
      obtain ⟨x, value⟩ := Option.isSome_iff_exists.mp (readable k List.mem_cons_self digits kind)
      exact ⟨[k], rfl, by simpa [kind, value] using .number _ value⟩
    · rename_i b kind
      cases read
      exact ⟨[k], rfl, by simpa [kind] using .bool b _⟩
    · rename_i kind
      cases read
      exact ⟨[k], rfl, by simpa [kind] using .null _⟩
    · rename_i name kind
      split at read
      · rename_i place place' rest'
        cases read
        exact ⟨[k, ⟨.lparen, place⟩, ⟨.rparen, place'⟩], rfl,
          by simpa [kind] using .emptyCall name _⟩
      · rename_i place rest' _
        split at read
        · cases read
        · rename_i args _ second
          cases read
          obtain ⟨ts, stop, rfl, closing, derived⟩ :=
            arguments_sound sound readable.of_cons.of_cons second
          exact ⟨k :: ⟨.lparen, place⟩ :: (ts ++ [stop]), by simp,
            by simpa [kind, closing] using derived.call name _⟩
      · rename_i bare
        cases read
        have free : nextKind rest ≠ .lparen := by
          intro next
          obtain ⟨position, r', same⟩ := eq_cons_of_nextKind next Kind.noConfusion
          exact bare position r' same
        exact ⟨[k], rfl, by simpa [kind] using .path name free⟩
    · rename_i kind
      split at read
      · cases read
      · rename_i tree place rest' inside
        cases read
        obtain ⟨ts, rfl, derived⟩ := sound r _ _ readable.of_cons inside
        exact ⟨k :: (ts ++ [⟨.rparen, place⟩]), by simp, by simpa [kind] using derived.group _⟩
      · cases read
    · cases read
    · cases read

theorem reader_sound (n : Nat) :
    Sound (disjunction n) (.tree .disjunction) ∧ Sound (negation n) (.tree .negation) := by
  induction n with
  | zero =>
    constructor
    all_goals
      intro _ _ _ _ read
      cases read
  | succ n ih =>
    obtain ⟨groups, negations⟩ := ih
    constructor
    · have relations := level_sound .relation rfl negations
      have equalities := level_sound .equality rfl relations
      have conjunctions := level_sound .conjunction rfl equalities
      exact level_sound .disjunction rfl conjunctions
    · intro tokens t rest readable read
      simp only [negation] at read
      split at read
      · rename_i place r
        split at read
        · cases read
        · rename_i tree _ operand
          cases read
          obtain ⟨ts, rfl, derived⟩ := negations r _ _ readable.of_cons operand
          exact ⟨⟨.not, place⟩ :: ts, rfl, derived.negation⟩
      · obtain ⟨ts, same, derived⟩ := primary_sound groups tokens t rest readable read
        exact ⟨ts, same, .operand rfl derived⟩

theorem derives_of_disjunction {n : Nat} {tokens rest : List Token} {t : Tree}
    (readable : Readable tokens) (read : disjunction n tokens = .ok (t, rest)) :
    ∃ ts, tokens = ts ++ rest ∧
      Derives (.tree .disjunction t) (ts.map Token.kind) (nextKind rest) :=
  (reader_sound n).1 tokens t rest readable read

end Drydock.Expr
