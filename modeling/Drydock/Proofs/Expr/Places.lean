import Drydock.Proofs.Expr.Completeness

set_option autoImplicit false
set_option relaxedAutoImplicit false

/-!
The places of tokens matter to faults alone. Main statement: tokens of the same kinds are read as
the same tree, or refused for the same cause.
-/

namespace Drydock.Expr

variable {α : Type} {reader : Reader Tree}

/-- Two readings differ at most in the places of tokens. -/
inductive Alike : Except SyntaxFault (α × List Token) → Except SyntaxFault (α × List Token) → Prop
  | ok (a : α) {rest rest' : List Token} (kinds : rest.map Token.kind = rest'.map Token.kind) :
      Alike (.ok (a, rest)) (.ok (a, rest'))
  | error {fault fault' : SyntaxFault} (cause : fault.cause = fault'.cause) :
      Alike (.error fault) (.error fault')

/-- A reader makes nothing of the places of tokens. -/
def IgnoresPlaces (reader : Reader α) : Prop :=
  ∀ tokens tokens', tokens.map Token.kind = tokens'.map Token.kind →
    Alike (reader tokens) (reader tokens')

theorem extend_ignoresPlaces (ignores : IgnoresPlaces reader) (operator? : Kind → Option Operator)
    (fuel : Nat) (left : Tree) : IgnoresPlaces (extend operator? reader fuel left) := by
  induction fuel generalizing left with
  | zero => exact fun _ _ kinds => .ok left kinds
  | succ fuel ih =>
    intro tokens tokens' kinds
    cases tokens with
    | nil =>
      rw [List.map_eq_nil_iff.mp kinds.symm]
      exact .ok left rfl
    | cons t r =>
      obtain ⟨position, r', rfl, others⟩ := kinds_eq_cons kinds.symm
      simp only [extend]
      cases operator? t.kind with
      | none => exact .ok left kinds
      | some op =>
        have alike := ignores r r' others.symm
        revert alike
        generalize reader r = result
        generalize reader r' = result'
        rintro (⟨right, kinds⟩ | cause)
        · exact ih _ _ _ kinds
        · exact .error cause

theorem level_ignoresPlaces (ignores : IgnoresPlaces reader) (operator? : Kind → Option Operator) :
    IgnoresPlaces (level operator? reader) := by
  intro tokens tokens' kinds
  have alike := ignores tokens tokens' kinds
  simp only [level]
  revert alike
  generalize reader tokens = result
  generalize reader tokens' = result'
  rintro (⟨left, kinds⟩ | cause)
  · have count := congrArg List.length kinds
    simp only [List.length_map] at count
    simp only [count]
    exact extend_ignoresPlaces ignores operator? _ left _ _ kinds
  · exact .error cause

theorem arguments_ignoresPlaces (ignores : IgnoresPlaces reader) (name name' : Token)
    (same : name.kind = name'.kind) (fuel : Nat) {tokens tokens' : List Token}
    (kinds : tokens.map Token.kind = tokens'.map Token.kind) :
    Alike (arguments name reader fuel tokens) (arguments name' reader fuel tokens') := by
  induction fuel generalizing tokens tokens' with
  | zero => exact .error (by rw [same])
  | succ fuel ih =>
    have first : tokens.head?.map Token.kind = tokens'.head?.map Token.kind := by
      rw [← List.head?_map, ← List.head?_map, kinds]
    simp only [arguments, first]
    split
    · exact .error (by rw [same])
    · exact .error (by rw [same])
    · have alike := ignores tokens tokens' kinds
      revert alike
      generalize reader tokens = result
      generalize reader tokens' = result'
      rintro (⟨arg, kinds⟩ | cause)
      · rename_i rest rest'
        cases rest with
        | nil =>
          rw [List.map_eq_nil_iff.mp kinds.symm]
          exact .error (by rw [same])
        | cons t r =>
          obtain ⟨position, r', rfl, others⟩ := kinds_eq_cons kinds.symm
          obtain ⟨kind, position'⟩ := t
          cases kind with
          | comma =>
            have alike := ih others.symm
            revert alike
            simp only
            generalize arguments name reader fuel r = result
            generalize arguments name' reader fuel r' = result'
            rintro (⟨args, kinds⟩ | cause)
            · exact .ok _ kinds
            · exact .error cause
          | rparen => exact .ok _ others.symm
          | _ => exact .error (by rw [same])
      · exact .error cause

theorem primary_ignoresPlaces (ignores : IgnoresPlaces reader) :
    IgnoresPlaces (primary reader) := by
  intro tokens tokens' kinds
  cases tokens with
  | nil =>
    rw [List.map_eq_nil_iff.mp kinds.symm]
    exact .error rfl
  | cons t r =>
    obtain ⟨position', r', rfl, others⟩ := kinds_eq_cons kinds.symm
    obtain ⟨kind, position⟩ := t
    cases kind with
    | text | number | bool | null => exact .ok _ others.symm
    | rparen | comma | not | operator | eof => exact .error rfl
    | lparen =>
      have alike := ignores r r' others.symm
      simp only [primary]
      revert alike
      generalize reader r = result
      generalize reader r' = result'
      rintro (⟨tree, kinds⟩ | cause)
      · rename_i rest rest'
        cases rest with
        | nil =>
          rw [List.map_eq_nil_iff.mp kinds.symm]
          exact .error rfl
        | cons t r =>
          obtain ⟨_, r', rfl, others⟩ := kinds_eq_cons kinds.symm
          obtain ⟨kind, _⟩ := t
          cases kind with
          | rparen => exact .ok tree others.symm
          | _ => exact .error rfl
      · exact .error cause
    | ident name =>
      by_cases called : nextKind r = .lparen
      · obtain ⟨q, r, rfl⟩ := eq_cons_of_nextKind called Kind.noConfusion
        obtain ⟨q', r', rfl, inner⟩ := kinds_eq_cons others
        by_cases closed : nextKind r = .rparen
        · obtain ⟨s, r, rfl⟩ := eq_cons_of_nextKind closed Kind.noConfusion
          obtain ⟨s', r', rfl, after⟩ := kinds_eq_cons inner
          exact .ok _ after.symm
        · have count : r'.length = r.length := by simpa using congrArg List.length inner
          have alike := arguments_ignoresPlaces ignores ⟨.ident name, position⟩
            ⟨.ident name, position'⟩ rfl r.length inner.symm
          rw [primary_call reader name closed,
            primary_call reader name (nextKind_congr inner ▸ closed), count]
          revert alike
          generalize arguments ⟨.ident name, position⟩ reader r.length r = result
          generalize arguments ⟨.ident name, position'⟩ reader r.length r' = result'
          rintro (⟨args, kinds⟩ | cause)
          · exact .ok _ kinds
          · exact .error cause
      · rw [primary_path _ _ _ called, primary_path _ _ _ (nextKind_congr others ▸ called)]
        exact .ok _ others.symm

theorem reader_ignoresPlaces (n : Nat) :
    IgnoresPlaces (disjunction n) ∧ IgnoresPlaces (negation n) := by
  induction n with
  | zero => exact ⟨fun _ _ _ => .error rfl, fun _ _ _ => .error rfl⟩
  | succ n ih =>
    obtain ⟨groups, negations⟩ := ih
    constructor
    · have relations := level_ignoresPlaces negations relationOperator?
      have equalities := level_ignoresPlaces relations equalityOperator?
      have conjunctions := level_ignoresPlaces equalities andOperator?
      exact level_ignoresPlaces conjunctions orOperator?
    · intro tokens tokens' kinds
      by_cases first : nextKind tokens = .not
      · obtain ⟨position, r, rfl⟩ := eq_cons_of_nextKind first Kind.noConfusion
        obtain ⟨position', r', rfl, others⟩ := kinds_eq_cons kinds.symm
        have alike := negations r r' others.symm
        simp only [negation]
        revert alike
        generalize negation n r = result
        generalize negation n r' = result'
        rintro (⟨operand, kinds⟩ | cause)
        · exact .ok _ kinds
        · exact .error cause
      · rw [negation_of_primary first, negation_of_primary (nextKind_congr kinds ▸ first)]
        exact primary_ignoresPlaces groups tokens tokens' kinds

/-- Tokens of the same kinds are read as the same tree. -/
theorem parseTokens_congr {tokens tokens' : List Token} {t : Tree}
    (kinds : tokens.map Token.kind = tokens'.map Token.kind) (read : parseTokens tokens = .ok t) :
    parseTokens tokens' = .ok t := by
  have alike := (reader_ignoresPlaces depthLimit).1 tokens tokens' kinds
  simp only [parseTokens] at read ⊢
  revert read alike
  generalize disjunction depthLimit tokens = result
  generalize disjunction depthLimit tokens' = result'
  rintro read (⟨tree, kinds⟩ | cause)
  · rename_i rest rest'
    cases rest with
    | nil =>
      rw [List.map_eq_nil_iff.mp kinds.symm]
      exact read
    | cons t r =>
      obtain ⟨_, r', rfl, -⟩ := kinds_eq_cons kinds.symm
      obtain ⟨kind, _⟩ := t
      cases kind with
      | eof => exact read
      | _ => cases read
  · cases read

end Drydock.Expr
