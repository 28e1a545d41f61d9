import Drydock.Proofs.Expr.Completeness

set_option autoImplicit false
set_option relaxedAutoImplicit false

/-!
How deep tokens nest, and that this is all that the budget of the parser bounds. Main statements: a
greater budget changes nothing where tokens are not refused for their depth, and tokens that nest no
deeper than a condition may are not refused for it.
-/

namespace Drydock.Expr

/-- The greatest depth at tokens, where `levels` are the depths at which the open parentheses began,
the innermost first. A parenthesis goes two deeper and a negation one; what stands between two
operands goes back to where the level began. -/
def nestingFrom : List Nat → Nat → List Kind → Nat
  | _, here, [] => here
  | levels, here, k :: r =>
    max here <| match k with
      | .not => nestingFrom levels (here + 1) r
      | .lparen => nestingFrom ((here + 2) :: levels) (here + 2) r
      | .rparen => nestingFrom levels.tail (levels.tail.headD 0) r
      | .operator _ | .comma => nestingFrom levels (levels.headD 0) r
      | _ => nestingFrom levels here r

/-- How deep tokens nest. -/
def nesting (ks : List Kind) : Nat :=
  nestingFrom [0] 0 ks

/-- Tokens nest no deeper than a condition may. -/
def IsShallow (ks : List Kind) : Prop :=
  nesting ks + 2 ≤ depthLimit

instance (ks : List Kind) : Decidable (IsShallow ks) :=
  inferInstanceAs (Decidable (_ ≤ _))

example : nesting [.not, .lparen, .ident "a", .rparen, .operator .or, .not, .not, .null] = 3 := by
  decide

theorem le_nestingFrom (levels : List Nat) (here : Nat) (ks : List Kind) :
    here ≤ nestingFrom levels here ks := by
  cases ks with
  | nil => exact le_rfl
  | cons k r => exact le_max_left here _

/-- Tokens are refused for their depth. -/
def TooDeep {α : Type} (result : Except SyntaxFault α) : Prop :=
  ∃ position, result = .error ⟨.nestedTooDeeply, position⟩

@[simp] theorem not_tooDeep_ok {α : Type} (a : α) : ¬TooDeep (.ok a) := by
  rintro ⟨position, same⟩
  cases same

@[simp] theorem tooDeep_error_iff {α : Type} {fault : SyntaxFault} :
    TooDeep (.error fault : Except SyntaxFault α) ↔ fault.cause = .nestedTooDeeply := by
  constructor
  · rintro ⟨position, same⟩
    cases same
    rfl
  · intro cause
    exact ⟨fault.position, by rw [← cause]⟩

section Budget

/-- A reader reads as another does what the other does not refuse for its depth. -/
def Extends {α : Type} (reader reader' : Reader α) : Prop :=
  ∀ tokens, ¬TooDeep (reader tokens) → reader' tokens = reader tokens

variable {reader reader' : Reader Tree} {operator? : Kind → Option Operator}

theorem extend_extends (more : Extends reader reader') (fuel : Nat) (left : Tree) :
    Extends (extend operator? reader fuel left) (extend operator? reader' fuel left) := by
  induction fuel generalizing left with
  | zero => exact fun _ _ => rfl
  | succ fuel ih =>
    intro tokens accepted
    cases tokens with
    | nil => rfl
    | cons t r =>
      simp only [extend] at accepted ⊢
      cases isOperator : operator? t.kind with
      | none => rfl
      | some op =>
        simp only [isOperator] at accepted ⊢
        cases read : reader r with
        | error fault =>
          have same := more r (by simpa [read] using accepted)
          simp only [same, read]
        | ok result =>
          have same := more r (by simp [read])
          simp only [read] at accepted
          simpa only [same, read] using ih _ _ accepted

theorem level_extends (more : Extends reader reader') :
    Extends (level operator? reader) (level operator? reader') := by
  intro tokens accepted
  simp only [level] at accepted ⊢
  cases read : reader tokens with
  | error fault =>
    have same := more tokens (by simpa [read] using accepted)
    simp only [same, read]
  | ok result =>
    have same := more tokens (by simp [read])
    simp only [read] at accepted
    simpa only [same, read] using extend_extends more _ _ _ accepted

theorem arguments_extends (more : Extends reader reader') (name : Token) (fuel : Nat) :
    Extends (arguments name reader fuel) (arguments name reader' fuel) := by
  induction fuel with
  | zero => exact fun _ _ => rfl
  | succ fuel ih =>
    intro tokens accepted
    simp only [arguments] at accepted ⊢
    split at accepted
    · rfl
    · rfl
    · cases read : reader tokens with
      | error fault =>
        have same := more tokens (by simpa [read] using accepted)
        simp only [same, read]
      | ok result =>
        obtain ⟨arg, rest⟩ := result
        have same := more tokens (by simp [read])
        simp only [same, read] at accepted ⊢
        split at accepted
        · rename_i position r
          cases others : arguments name reader fuel r with
          | error fault =>
            have same := ih r (by simpa [others] using accepted)
            simp only [same, others]
          | ok result =>
            have same := ih r (by simp [others])
            simp only [same, others]
        · rfl
        · rfl
        · rfl
        · rfl

theorem primary_extends (more : Extends reader reader') :
    Extends (primary reader) (primary reader') := by
  intro tokens accepted
  cases tokens with
  | nil => rfl
  | cons t r =>
    obtain ⟨kind, position⟩ := t
    cases kind with
    | text | number | bool | null | rparen | comma | not | operator | eof => rfl
    | ident name =>
      simp only [primary] at accepted ⊢
      split at accepted
      · rfl
      · rename_i place rest _
        cases read : arguments ⟨.ident name, position⟩ reader rest.length rest with
        | error fault =>
          have same := arguments_extends more ⟨.ident name, position⟩ rest.length rest
            (by simpa [read] using accepted)
          simp only [same, read]
        | ok result =>
          have same := arguments_extends more ⟨.ident name, position⟩ rest.length rest
            (by simp [read])
          simp only [same, read]
      · rfl
    | lparen =>
      simp only [primary] at accepted ⊢
      cases read : reader r with
      | error fault =>
        have same := more r (by simpa [read] using accepted)
        simp only [same, read]
      | ok result =>
        have same := more r (by simp [read])
        simp only [same, read]

theorem reader_extends (n m : Nat) (more : n ≤ m) :
    Extends (disjunction n) (disjunction m) ∧ Extends (negation n) (negation m) := by
  induction n generalizing m with
  | zero => exact ⟨fun tokens accepted => absurd ⟨none, rfl⟩ accepted,
      fun tokens accepted => absurd ⟨none, rfl⟩ accepted⟩
  | succ n ih =>
    obtain ⟨m, rfl⟩ : ∃ k, m = k + 1 := ⟨m - 1, by omega⟩
    obtain ⟨groups, negations⟩ := ih m (Nat.le_of_succ_le_succ more)
    constructor
    · exact level_extends (level_extends (level_extends (level_extends negations)))
    · intro tokens accepted
      by_cases first : nextKind tokens = .not
      · obtain ⟨position, r, rfl⟩ := eq_cons_of_nextKind first Kind.noConfusion
        simp only [negation] at accepted ⊢
        cases read : negation n r with
        | error fault =>
          have same := negations r (by simpa [read] using accepted)
          simp only [same, read]
        | ok result =>
          have same := negations r (by simp [read])
          simp only [same, read]
      · rw [negation_of_primary first] at accepted ⊢
        rw [negation_of_primary first]
        exact primary_extends groups tokens accepted

/-- A greater budget changes nothing where tokens are not refused for their depth. -/
theorem disjunction_extends {n m : Nat} (more : n ≤ m) : Extends (disjunction n) (disjunction m) :=
  (reader_extends n m more).1

end Budget

section Depth

/-- From some depth on tokens stay within a bound. -/
def Fits (bound : Nat) (levels : List Nat) (tokens : List Token) : Prop :=
  ∃ here, nestingFrom levels here (tokens.map Token.kind) ≤ bound

/-- A reading was not refused for its depth, and what it leaves stays within a bound. -/
def Within {α : Type} (bound : Nat) (levels : List Nat) : Except SyntaxFault (α × List Token) → Prop
  | .error fault => fault.cause ≠ .nestedTooDeeply
  | .ok (_, rest) => Fits bound levels rest

/-- A reader does not refuse tokens that stay within a bound for their depth, and leaves such
tokens. -/
def Reaches (bound base : Nat) (reader : Reader Tree) : Prop :=
  ∀ levels tokens, nestingFrom (base :: levels) base (tokens.map Token.kind) ≤ bound →
    Within bound (base :: levels) (reader tokens)

variable {bound base : Nat} {levels : List Nat} {reader : Reader Tree} {l : Level}

theorem Fits.after_operator {t : Token} {r : List Token} {op : Operator}
    (fits : Fits bound (base :: levels) (t :: r)) (kind : t.kind = .operator op) :
    nestingFrom (base :: levels) base (r.map Token.kind) ≤ bound := by
  obtain ⟨here, fits⟩ := fits
  simp only [List.map_cons, kind, nestingFrom] at fits
  exact (Nat.max_le.mp fits).2

theorem Fits.after_comma {position : Nat} {r : List Token}
    (fits : Fits bound (base :: levels) (⟨.comma, position⟩ :: r)) :
    nestingFrom (base :: levels) base (r.map Token.kind) ≤ bound := by
  obtain ⟨here, fits⟩ := fits
  exact (Nat.max_le.mp fits).2

theorem Fits.after_rparen {position : Nat} {r : List Token}
    (fits : Fits bound (base :: levels) (⟨.rparen, position⟩ :: r)) : Fits bound levels r := by
  obtain ⟨here, fits⟩ := fits
  exact ⟨_, (Nat.max_le.mp fits).2⟩

theorem extend_within (reaches : Reaches bound base reader) (fuel : Nat) (left : Tree)
    {tokens : List Token} (fits : Fits bound (base :: levels) tokens) :
    Within bound (base :: levels) (extend l.operator? reader fuel left tokens) := by
  induction fuel generalizing left tokens with
  | zero => exact fits
  | succ fuel ih =>
    cases tokens with
    | nil => exact fits
    | cons t r =>
      simp only [extend]
      cases isOperator : l.operator? t.kind with
      | none => exact fits
      | some op =>
        obtain ⟨kind, -⟩ := Level.operator?_eq_some_iff.mp isOperator
        have within := reaches levels r (fits.after_operator kind)
        cases read : reader r with
        | error fault =>
          rw [read] at within
          exact within
        | ok result =>
          rw [read] at within
          exact ih _ within

theorem level_reaches (reaches : Reaches bound base reader) :
    Reaches bound base (level l.operator? reader) := by
  intro levels tokens fits
  have within := reaches levels tokens fits
  simp only [level]
  cases read : reader tokens with
  | error fault =>
    rw [read] at within
    exact within
  | ok result =>
    rw [read] at within
    exact extend_within reaches _ _ within

theorem arguments_within (reaches : Reaches bound base reader) (name : Token) (fuel : Nat)
    {tokens : List Token}
    (fits : nestingFrom (base :: levels) base (tokens.map Token.kind) ≤ bound) :
    Within bound levels (arguments name reader fuel tokens) := by
  induction fuel generalizing tokens with
  | zero => exact Cause.noConfusion
  | succ fuel ih =>
    have within := reaches levels tokens fits
    simp only [arguments]
    split
    · exact Cause.noConfusion
    · exact Cause.noConfusion
    · cases read : reader tokens with
      | error fault =>
        rw [read] at within
        exact within
      | ok result =>
        obtain ⟨arg, rest⟩ := result
        rw [read] at within
        simp only
        split
        · have more := ih (Fits.after_comma within)
          revert more
          cases arguments name reader fuel _ with
          | error fault => exact id
          | ok result => exact id
        · exact Fits.after_rparen within
        · exact Cause.noConfusion
        · exact Cause.noConfusion
        · exact Cause.noConfusion

theorem primary_within {here : Nat} (reaches : Reaches bound (here + 2) reader)
    {tokens : List Token}
    (fits : nestingFrom (base :: levels) here (tokens.map Token.kind) ≤ bound) :
    Within bound (base :: levels) (primary reader tokens) := by
  cases tokens with
  | nil => exact Cause.noConfusion
  | cons t r =>
    obtain ⟨kind, position⟩ := t
    have further := (Nat.max_le.mp fits).2
    cases kind with
    | text | number | bool | null => exact ⟨here, further⟩
    | rparen | comma | not | operator | eof => exact Cause.noConfusion
    | lparen =>
      have within := reaches (base :: levels) r further
      simp only [primary]
      cases read : reader r with
      | error fault =>
        rw [read] at within
        exact within
      | ok result =>
        obtain ⟨tree, rest⟩ := result
        rw [read] at within
        split
        · cases ‹Except.ok _ = Except.error _›
        · rename_i same
          cases same
          exact Fits.after_rparen within
        · exact Cause.noConfusion
    | ident name =>
      simp only [primary]
      split
      · exact Fits.after_rparen ⟨_, (Nat.max_le.mp further).2⟩
      · rename_i rest _
        have within := arguments_within reaches ⟨.ident name, position⟩ rest.length
          (Nat.max_le.mp further).2
        revert within
        cases arguments ⟨.ident name, position⟩ reader rest.length rest with
        | error fault => exact id
        | ok result => exact id
      · exact ⟨here, further⟩

theorem reader_within (bound n : Nat) :
    (∀ base, bound + 2 ≤ base + n → Reaches bound base (disjunction n)) ∧
    (∀ base here levels tokens, bound + 1 ≤ here + n →
      nestingFrom (base :: levels) here (tokens.map Token.kind) ≤ bound →
        Within bound (base :: levels) (negation n tokens)) := by
  induction n with
  | zero =>
    constructor
    · intro base enough levels tokens fits
      have low := le_nestingFrom (base :: levels) base (tokens.map Token.kind)
      omega
    · intro base here levels tokens enough fits
      have low := le_nestingFrom (base :: levels) here (tokens.map Token.kind)
      omega
  | succ n ih =>
    obtain ⟨groups, negations⟩ := ih
    constructor
    · intro base enough
      have operands : Reaches bound base (negation n) :=
        fun levels tokens => negations base base levels tokens (by omega)
      have relations := level_reaches (l := .relation) operands
      have equalities := level_reaches (l := .equality) relations
      have conjunctions := level_reaches (l := .conjunction) equalities
      exact level_reaches (l := .disjunction) conjunctions
    · intro base here levels tokens enough fits
      by_cases first : nextKind tokens = .not
      · obtain ⟨position, r, rfl⟩ := eq_cons_of_nextKind first Kind.noConfusion
        have within := negations base (here + 1) levels r (by omega) (Nat.max_le.mp fits).2
        simp only [negation]
        revert within
        cases negation n r with
        | error fault => exact id
        | ok result => exact id
      · rw [negation_of_primary first]
        exact primary_within (groups (here + 2) (by omega)) fits

/-- Tokens are not refused for their depth within a budget that exceeds it by two. -/
theorem not_tooDeep_of_nesting {tokens : List Token} {n : Nat}
    (enough : nesting (tokens.map Token.kind) + 2 ≤ n) : ¬TooDeep (disjunction n tokens) := by
  have within := (reader_within (nesting (tokens.map Token.kind)) n).1 0 (by omega) [] tokens le_rfl
  cases read : disjunction n tokens with
  | error fault =>
    rw [read] at within
    exact tooDeep_error_iff.not.mpr within
  | ok result => exact not_tooDeep_ok result

/-- Tokens that nest no deeper than a condition may are not refused for their depth. -/
theorem not_tooDeep_of_isShallow {tokens : List Token}
    (shallow : IsShallow (tokens.map Token.kind)) : ¬TooDeep (disjunction depthLimit tokens) :=
  not_tooDeep_of_nesting shallow

end Depth

end Drydock.Expr
