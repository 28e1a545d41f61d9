import Drydock.Proofs.Expr.Completeness

set_option autoImplicit false
set_option relaxedAutoImplicit false

/-!
The parser as a machine that takes one token after another and keeps the parentheses that are open.
Main statement: the machine refuses the tokens that the parser refuses, with the same fault.
-/

namespace Drydock.Expr

/-- What is expected next: an operand, with a budget for the negations before it; an argument of a
call, within its own budget; or what can stand after an operand, where a name that was just read
can be called. -/
inductive Expectation
  | operand (here : Nat)
  | argument (first : Bool) (name : Token) (inner : Nat)
  | after (callee : Option (Token × Nat))

/-- An open parenthesis: the name that it calls, unless it opens a group, and the budget of the
operands around it. -/
structure Opening where
  call? : Option Token
  base : Nat

/-- How far tokens are read: what is expected next, the budget of operands here, and the open
parentheses, the innermost first. -/
structure Machine where
  expect : Expectation
  base : Nat
  openings : List Opening

namespace Machine

/-- The verdict on tokens that end here. -/
def finish (m : Machine) (position : Option Nat) : Except SyntaxFault Unit :=
  match m.expect with
  | .operand 0 => .error ⟨.nestedTooDeeply, none⟩
  | .operand (_ + 1) => .error ⟨.endOfExpression, position⟩
  | .argument _ name _ => .error ⟨.unclosedCall name.kind.content, some name.position⟩
  | .after _ =>
    match m.openings with
    | [] => .ok ()
    | ⟨none, _⟩ :: _ => .error ⟨.unclosedGroup, position⟩
    | ⟨some name, _⟩ :: _ => .error ⟨.unclosedCall name.kind.content, some name.position⟩

/-- A token where an operand is expected. -/
def begin (m : Machine) (here : Nat) (t : Token) : Except SyntaxFault Machine :=
  match here with
  | 0 => .error ⟨.nestedTooDeeply, none⟩
  | here + 1 =>
    match t.kind with
    | .text _ | .number _ | .bool _ | .null => .ok { m with expect := .after none }
    | .ident _ => .ok { m with expect := .after (some (t, here - 1)) }
    | .not => .ok { m with expect := .operand here }
    | .lparen => .ok ⟨.operand (here - 1), here - 1, ⟨none, m.base⟩ :: m.openings⟩
    | kind => .error ⟨.unexpectedToken kind.content, some t.position⟩

/-- Why a token cannot stand after an operand. -/
def refusal (m : Machine) (t : Token) : SyntaxFault :=
  match m.openings with
  | [] => ⟨.unexpectedToken t.kind.content, some t.position⟩
  | ⟨none, _⟩ :: _ => ⟨.unclosedGroup, some t.position⟩
  | ⟨some name, _⟩ :: _ => ⟨.missingSeparator name.kind.content, some t.position⟩

/-- A token after an operand. -/
def proceed (m : Machine) (callee : Option (Token × Nat)) (t : Token) :
    Except SyntaxFault Machine :=
  match t.kind, callee, m.openings with
  | .operator _, _, _ => .ok { m with expect := .operand m.base }
  | .lparen, some (name, inner), _ => .ok { m with expect := .argument true name inner }
  | .rparen, _, ⟨_, base⟩ :: others => .ok ⟨.after none, base, others⟩
  | .comma, _, ⟨some name, base⟩ :: others => .ok ⟨.argument false name m.base, base, others⟩
  | _, _, _ => .error (m.refusal t)

/-- One token. -/
def step (m : Machine) (t : Token) : Except SyntaxFault Machine :=
  match m.expect with
  | .operand here => m.begin here t
  | .argument first name inner =>
    if first && t.kind == .rparen then .ok { m with expect := .after none }
    else begin ⟨.operand inner, inner, ⟨some name, m.base⟩ :: m.openings⟩ inner t
  | .after callee => m.proceed callee t

/-- The verdict on tokens up to the end. -/
def run (m : Machine) : List Token → Except SyntaxFault Unit
  | [] => m.finish none
  | t :: r =>
    if t.kind = .eof then m.finish (some t.position)
    else
      match m.step t with
      | .error fault => .error fault
      | .ok next => next.run r

/-- Where a condition begins. -/
def start : Machine :=
  ⟨.operand (depthLimit - 1), depthLimit - 1, []⟩

/-- Where an operand of a level is expected. -/
def expecting (base : Nat) (openings : List Opening) : Machine :=
  ⟨.operand base, base, openings⟩

/-- Behind an operand that is no name to be called. -/
def behind (base : Nat) (openings : List Opening) : Machine :=
  ⟨.after none, base, openings⟩

end Machine

section Ends

variable {outer inner : Level} {reader : Reader Tree}

/-- A reader takes tokens off and stops before what is no operator of its level or a tighter one. -/
def Ends (l : Level) (reader : Reader Tree) : Prop :=
  ∀ tokens t rest, reader tokens = .ok (t, rest) →
    rest.length < tokens.length ∧ l.StopsAt (nextKind rest)

theorem Level.stopsAt_of_below {next : Kind} (below : outer.operand? = some inner)
    (stops : inner.StopsAt next) (here : outer.operator? next = none) : outer.StopsAt next := by
  intro tighter above
  by_cases same : tighter = outer
  · rwa [same]
  · refine stops tighter ?_
    cases outer <;> cases below <;> cases tighter <;>
      first | exact absurd rfl same | exact absurd above (by decide) | decide

theorem Level.not_operator_of_stopsAt {next : Kind} (stops : Level.disjunction.StopsAt next)
    (op : Operator) : next ≠ .operator op := by
  rintro rfl
  have some (l : Level) (joins : op ∈ l.operators) : False := by
    have none := stops l (Nat.zero_le _)
    rw [Level.operator?_eq_some_iff.mpr ⟨rfl, joins⟩] at none
    cases none
  cases op with
  | or => exact some .disjunction (by decide)
  | and => exact some .conjunction (by decide)
  | eq | ne => exact some .equality (by decide)
  | lt | gt | le | ge => exact some .relation (by decide)

theorem extend_ends (below : outer.operand? = some inner) (ends : Ends inner reader)
    {fuel : Nat} {left t : Tree} {tokens rest : List Token} (enough : tokens.length ≤ fuel)
    (stops : inner.StopsAt (nextKind tokens))
    (read : extend outer.operator? reader fuel left tokens = .ok (t, rest)) :
    rest.length ≤ tokens.length ∧ outer.StopsAt (nextKind rest) := by
  induction fuel generalizing left tokens with
  | zero =>
    cases read
    obtain rfl := List.eq_nil_of_length_eq_zero (Nat.le_zero.mp enough)
    exact ⟨le_rfl, Level.stopsAt_of_not_operator outer fun _ => Kind.noConfusion⟩
  | succ fuel ih =>
    cases tokens with
    | nil =>
      cases read
      exact ⟨le_rfl, Level.stopsAt_of_not_operator outer fun _ => Kind.noConfusion⟩
    | cons k r =>
      simp only [extend] at read
      cases isOperator : outer.operator? k.kind with
      | none =>
        rw [isOperator] at read
        cases read
        exact ⟨le_rfl, Level.stopsAt_of_below below stops isOperator⟩
      | some op =>
        simp only [isOperator] at read
        cases second : reader r with
        | error fault =>
          rw [second] at read
          cases read
        | ok result =>
          obtain ⟨right, after⟩ := result
          obtain ⟨shorter, stops⟩ := ends r right after second
          simp only [second] at read
          simp only [List.length_cons] at enough ⊢
          obtain ⟨le, stops⟩ := ih (by omega) stops read
          exact ⟨by omega, stops⟩

theorem level_ends (outer : Level) (below : outer.operand? = some inner)
    (ends : Ends inner reader) : Ends outer (level outer.operator? reader) := by
  intro tokens t rest read
  simp only [level] at read
  cases first : reader tokens with
  | error fault =>
    rw [first] at read
    cases read
  | ok result =>
    obtain ⟨left, after⟩ := result
    obtain ⟨shorter, stops⟩ := ends tokens left after first
    simp only [first] at read
    obtain ⟨le, stops⟩ := extend_ends below ends le_rfl stops read
    exact ⟨by omega, stops⟩

theorem arguments_shorten {l : Level} (ends : Ends l reader) {name : Token} {fuel : Nat}
    {args : List Tree} {tokens rest : List Token}
    (read : arguments name reader fuel tokens = .ok (args, rest)) :
    rest.length < tokens.length := by
  induction fuel generalizing args tokens with
  | zero => cases read
  | succ fuel ih =>
    simp only [arguments] at read
    split at read
    · cases read
    · cases read
    · split at read
      · cases read
      · rename_i arg after first
        have shorter := (ends tokens arg after first).1
        split at read
        · split at read
          · cases read
          · rename_i second
            cases read
            have more := ih second
            simp only [List.length_cons] at shorter
            omega
        · cases read
          simp only [List.length_cons] at shorter
          omega
        · cases read
        · cases read
        · cases read

theorem primary_ends {l : Level} (ends : Ends l reader) : Ends .negation (primary reader) := by
  intro tokens t rest read
  refine ⟨?_, Level.stopsAt_negation _⟩
  cases tokens with
  | nil => cases read
  | cons k r =>
    simp only [primary] at read
    split at read
    · cases read; simp
    · cases read; simp
    · cases read; simp
    · cases read; simp
    · split at read
      · cases read
        simp only [List.length_cons]
        omega
      · split at read
        · cases read
        · rename_i second
          cases read
          have shorter := arguments_shorten ends second
          simp only [List.length_cons]
          omega
      · cases read; simp
    · split at read
      · cases read
      · rename_i inside
        cases read
        have shorter := (ends _ _ _ inside).1
        simp only [List.length_cons] at shorter ⊢
        omega
      · cases read
    · cases read
    · cases read

theorem reader_ends (n : Nat) :
    Ends .disjunction (disjunction n) ∧ Ends .negation (negation n) := by
  induction n with
  | zero =>
    constructor
    all_goals
      intro _ _ _ read
      cases read
  | succ n ih =>
    obtain ⟨groups, negations⟩ := ih
    constructor
    · have relations := level_ends .relation rfl negations
      have equalities := level_ends .equality rfl relations
      have conjunctions := level_ends .conjunction rfl equalities
      exact level_ends .disjunction rfl conjunctions
    · intro tokens t rest read
      simp only [negation] at read
      split at read
      · split at read
        · cases read
        · rename_i operand
          cases read
          obtain ⟨shorter, stops⟩ := negations _ _ _ operand
          exact ⟨Nat.lt_succ_of_lt shorter, stops⟩
      · exact primary_ends groups tokens t rest read

end Ends

section Follows

open Machine

variable {α : Type} {reader : Reader Tree} {base n : Nat} {os : List Opening}

/-- From one state the machine finds the fault that a reader finds, or goes on from another with
what the reader leaves. -/
def Follows (m m' : Machine) (tokens : List Token)
    (result : Except SyntaxFault (α × List Token)) : Prop :=
  m.run tokens = result.bind fun read => m'.run read.2

theorem extend_follows (l : Level)
    (follows : ∀ r, Follows (expecting base os) (behind base os) r (reader r))
    (fuel : Nat) (left : Tree) (tokens : List Token) :
    Follows (behind base os) (behind base os) tokens
      (extend l.operator? reader fuel left tokens) := by
  induction fuel generalizing left tokens with
  | zero => rfl
  | succ fuel ih =>
    cases tokens with
    | nil => rfl
    | cons t r =>
      simp only [extend]
      cases isOperator : l.operator? t.kind with
      | none => rfl
      | some op =>
        obtain ⟨kind, -⟩ := Level.operator?_eq_some_iff.mp isOperator
        have first : (behind base os).run (t :: r) = (expecting base os).run r := by
          simp [run, step, proceed, behind, expecting, kind]
        rw [Follows, first, follows r]
        cases reader r with
        | error fault => rfl
        | ok result => exact ih _ result.2

theorem level_follows (l : Level)
    (follows : ∀ r, Follows (expecting base os) (behind base os) r (reader r))
    (tokens : List Token) :
    Follows (expecting base os) (behind base os) tokens (level l.operator? reader tokens) := by
  rw [Follows, follows tokens, level]
  cases reader tokens with
  | error fault => rfl
  | ok result => exact extend_follows l follows _ _ result.2

theorem run_rparen {o : Opening} {position : Nat} {r : List Token} :
    (behind n (o :: os)).run (⟨.rparen, position⟩ :: r) = (behind o.base os).run r := by
  simp [run, step, proceed, behind]

theorem run_comma {name : Token} {position : Nat} {r : List Token} :
    (behind n (⟨some name, base⟩ :: os)).run (⟨.comma, position⟩ :: r) =
      Machine.run ⟨.argument false name n, base, os⟩ r := by
  simp [run, step, proceed, behind]

theorem arguments_follows (ends : Ends .disjunction reader)
    (follows : ∀ os r, Follows (expecting n os) (behind n os) r (reader r)) (name : Token)
    {fuel : Nat} {first : Bool} {tokens : List Token} (enough : tokens.length ≤ fuel)
    (some : first = true → nextKind tokens ≠ .rparen) :
    Follows ⟨.argument first name n, base, os⟩ (behind base os) tokens
      (arguments name reader fuel tokens) := by
  induction fuel generalizing first tokens with
  | zero =>
    obtain rfl := List.eq_nil_of_length_eq_zero (Nat.le_zero.mp enough)
    rfl
  | succ fuel ih =>
    cases tokens with
    | nil => rfl
    | cons t r =>
      by_cases last : t.kind = .eof
      · simp [Follows, arguments, run, finish, last, Except.bind]
      · have closes : (first && t.kind == .rparen) = false := by
          cases first with
          | false => rfl
          | true => simpa using some rfl
        have enter : Machine.run ⟨.argument first name n, base, os⟩ (t :: r) =
            (expecting n (⟨Option.some name, base⟩ :: os)).run (t :: r) := by
          simp only [run, if_neg last, step, closes, expecting]
          rfl
        rw [Follows, enter, follows _ (t :: r)]
        simp only [arguments, List.head?_cons, Option.map_some]
        cases read : reader (t :: r) with
        | error fault => rfl
        | ok result =>
          obtain ⟨arg, rest⟩ := result
          obtain ⟨shorter, stops⟩ := ends _ _ _ read
          cases rest with
          | nil => rfl
          | cons k rest =>
            obtain ⟨kind, position⟩ := k
            cases kind with
            | comma =>
              simp only [List.length_cons] at enough shorter
              have more := @ih false rest (by omega) (by simp)
              simp only [Except.bind, run_comma]
              rw [more]
              cases arguments name reader fuel rest <;> rfl
            | rparen => exact run_rparen
            | operator op => exact absurd rfl (Level.not_operator_of_stopsAt stops op)
            | _ => rfl

/-- A name that no parenthesis follows is an operand like any other. -/
theorem run_of_bare {callee : Option (Token × Nat)} {r : List Token}
    (bare : nextKind r ≠ .lparen) :
    Machine.run ⟨.after callee, base, os⟩ r = (behind base os).run r := by
  cases r with
  | nil => rfl
  | cons t r =>
    obtain ⟨kind, position⟩ := t
    cases kind with
    | lparen => exact absurd rfl bare
    | rparen => cases os <;> rfl
    | comma => rcases os with - | ⟨⟨- | name, outer⟩, os⟩ <;> rfl
    | _ => rfl

theorem primary_follows (ends : Ends .disjunction reader)
    (follows : ∀ os r, Follows (expecting (n - 1) os) (behind (n - 1) os) r (reader r))
    {tokens : List Token} (plain : nextKind tokens ≠ .not) :
    Follows ⟨.operand (n + 1), base, os⟩ (behind base os) tokens (primary reader tokens) := by
  cases tokens with
  | nil => rfl
  | cons t r =>
    obtain ⟨kind, position⟩ := t
    cases kind with
    | text | number | bool | null | rparen | comma | operator | eof => rfl
    | not => exact absurd rfl plain
    | ident name =>
      by_cases called : nextKind r = .lparen
      · obtain ⟨q, r, rfl⟩ := eq_cons_of_nextKind called Kind.noConfusion
        by_cases closed : nextKind r = .rparen
        · obtain ⟨s, r, rfl⟩ := eq_cons_of_nextKind closed Kind.noConfusion
          rfl
        · have more : Follows ⟨.argument true ⟨.ident name, position⟩ (n - 1), base, os⟩
              (behind base os) r (arguments ⟨.ident name, position⟩ reader r.length r) :=
            arguments_follows ends follows _ le_rfl fun _ => closed
          rw [Follows, primary_call reader name closed]
          have enter : Machine.run ⟨.operand (n + 1), base, os⟩
              (⟨.ident name, position⟩ :: ⟨.lparen, q⟩ :: r) =
                Machine.run ⟨.argument true ⟨.ident name, position⟩ (n - 1), base, os⟩ r := rfl
          rw [enter, more]
          cases arguments ⟨.ident name, position⟩ reader r.length r <;> rfl
      · rw [Follows, primary_path reader name position called]
        exact run_of_bare called
    | lparen =>
      have enter : Machine.run ⟨.operand (n + 1), base, os⟩ (⟨.lparen, position⟩ :: r) =
          (expecting (n - 1) (⟨none, base⟩ :: os)).run r := rfl
      rw [Follows, enter, follows _ r]
      simp only [primary]
      cases inside : reader r with
      | error fault => rfl
      | ok result =>
        obtain ⟨tree, rest⟩ := result
        have stops := (ends _ _ _ inside).2
        cases rest with
        | nil => rfl
        | cons k rest =>
          obtain ⟨kind, place⟩ := k
          cases kind with
          | rparen => exact run_rparen
          | operator op => exact absurd rfl (Level.not_operator_of_stopsAt stops op)
          | _ => rfl

/-- The budget of a level is one more than that of its operands. -/
theorem reader_follows (n : Nat) :
    (∀ os tokens, Follows (expecting (n - 1) os) (behind (n - 1) os) tokens
      (disjunction n tokens)) ∧
    (∀ base os tokens, Follows ⟨.operand n, base, os⟩ (behind base os) tokens
      (negation n tokens)) := by
  have exhausted : ∀ base os tokens,
      Machine.run ⟨.operand 0, base, os⟩ tokens = .error ⟨.nestedTooDeeply, none⟩ := by
    intro base os tokens
    cases tokens with
    | nil => rfl
    | cons t r => simp [run, finish, step, begin]
  induction n with
  | zero => exact ⟨fun os => exhausted 0 os, exhausted⟩
  | succ n ih =>
    obtain ⟨groups, negations⟩ := ih
    constructor
    · intro os
      have relations := level_follows .relation (negations n os)
      have equalities := level_follows .equality relations
      have conjunctions := level_follows .conjunction equalities
      exact level_follows .disjunction conjunctions
    · intro base os tokens
      by_cases first : nextKind tokens = .not
      · obtain ⟨position, r, rfl⟩ := eq_cons_of_nextKind first Kind.noConfusion
        have enter : Machine.run ⟨.operand (n + 1), base, os⟩ (⟨.not, position⟩ :: r) =
            Machine.run ⟨.operand n, base, os⟩ r := rfl
        rw [Follows, enter, negations base os r]
        simp only [negation]
        cases negation n r <;> rfl
      · rw [negation_of_primary first]
        exact primary_follows (reader_ends n).1 groups first

/-- The machine accepts the tokens that the parser accepts and refuses the others with the same
fault. -/
theorem run_start (tokens : List Token) :
    start.run tokens = (parseTokens tokens).map fun _ => () := by
  have follows := (reader_follows depthLimit).1 [] tokens
  rw [Follows] at follows
  have same : start = expecting (depthLimit - 1) [] := rfl
  rw [same, follows, parseTokens]
  cases read : disjunction depthLimit tokens with
  | error fault => rfl
  | ok result =>
    obtain ⟨tree, rest⟩ := result
    have stops := ((reader_ends depthLimit).1 _ _ _ read).2
    cases rest with
    | nil => rfl
    | cons k rest =>
      obtain ⟨kind, place⟩ := k
      cases kind with
      | operator op => exact absurd rfl (Level.not_operator_of_stopsAt stops op)
      | _ => rfl

end Follows

end Drydock.Expr
