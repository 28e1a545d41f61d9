import Drydock.Proofs.Expr.Automaton
import Drydock.Proofs.Expr.Exactness

set_option autoImplicit false
set_option relaxedAutoImplicit false

/-!
Where tokens go wrong. Main statement: tokens that are refused, other than for their depth, can be
completed to a condition up to the token that the fault points at and no further, or end inside a
call whose name the fault points at.
-/

namespace Drydock.Expr

/-- Every parenthesis has its partner. -/
inductive Balanced : List Kind → Prop
  | nil : Balanced []
  | plain {k : Kind} (opens : k ≠ .lparen) (closes : k ≠ .rparen) : Balanced [k]
  | append {ks rs : List Kind} (first : Balanced ks) (second : Balanced rs) : Balanced (ks ++ rs)
  | enclosed {ks : List Kind} (inside : Balanced ks) : Balanced (.lparen :: (ks ++ [.rparen]))

/-- The parentheses that are open after tokens, the innermost first: the name before one that calls
it, nothing before one that opens a group. -/
inductive Opened : List (Option Token) → List Token → Prop
  | none {ts : List Token} (balanced : Balanced (ts.map Token.kind)) : Opened [] ts
  | group {os : List (Option Token)} {ts inside : List Token} {p : Nat} (outside : Opened os ts)
      (balanced : Balanced (inside.map Token.kind)) :
      Opened (Option.none :: os) (ts ++ ⟨.lparen, p⟩ :: inside)
  | call {os : List (Option Token)} {ts inside : List Token} {name : Token} {n : String} {p : Nat}
      (named : name.kind = .ident n) (outside : Opened os (ts ++ [name]))
      (balanced : Balanced (inside.map Token.kind)) :
      Opened (some name :: os) (ts ++ name :: ⟨.lparen, p⟩ :: inside)

/-- Further tokens and an end make of tokens ones that are read as a condition. -/
def Completes (ts : List Token) : Prop :=
  ∃ more stop t, Kind.eof ∉ more.map Token.kind ∧
    parseTokens (ts ++ (more ++ [⟨.eof, stop⟩])) = .ok t

/-- What a fault says of tokens up to their end. Either it points at a token, those before it can be
completed, and with it, whatever follows, they are refused with this fault and begin no condition;
that token is the end exactly if all tokens can be completed. Or it points at the name of a call
whose parenthesis is the innermost that is open at the end, and the tokens can be completed. -/
inductive Pinpoints (ts : List Token) (stop : Nat) (fault : SyntaxFault) : Prop
  | token {before after : List Token} {k : Token}
      (whole : ts ++ [⟨.eof, stop⟩] = before ++ k :: after)
      (points : fault.position = some k.position) (completes : Completes before)
      (refused : ∀ rest, parseTokens (before ++ k :: rest) = .error fault)
      (never : ∀ ks t, ¬Writes ((before ++ [k]).map Token.kind ++ ks) t)
      (final : k.kind = .eof ↔ Completes ts)
  | unclosed {front inside : List Token} {name : Token} {n : String} {p : Nat}
      (whole : ts = front ++ name :: ⟨.lparen, p⟩ :: inside) (named : name.kind = .ident n)
      (balanced : Balanced (inside.map Token.kind))
      (points : fault = ⟨.unclosedCall n, some name.position⟩) (completes : Completes ts)

section Opened

variable {os : List (Option Token)} {o : Option Token} {ts more : List Token} {t : Token}

theorem Opened.append (opened : Opened os ts) (balanced : Balanced (more.map Token.kind)) :
    Opened os (ts ++ more) := by
  cases opened with
  | none inside => exact .none (by simpa using inside.append balanced)
  | @group os ts inside p outside level =>
    have all : Balanced ((inside ++ more).map Token.kind) := by simpa using level.append balanced
    simpa using outside.group (p := p) all
  | @call os ts inside name n p named outside level =>
    have all : Balanced ((inside ++ more).map Token.kind) := by simpa using level.append balanced
    simpa using outside.call (p := p) named all

theorem Opened.push (opened : Opened os ts) (opens : t.kind ≠ .lparen) (closes : t.kind ≠ .rparen) :
    Opened os (ts ++ [t]) :=
  opened.append (.plain opens closes)

theorem Opened.close (opened : Opened (o :: os) ts) (kind : t.kind = .rparen) :
    Opened os (ts ++ [t]) := by
  cases opened with
  | @group os ts inside p outside level =>
    have pair : Balanced ((⟨.lparen, p⟩ :: (inside ++ [t])).map Token.kind) := by
      simpa [kind] using level.enclosed
    simpa using outside.append pair
  | @call os ts inside name n p named outside level =>
    have pair : Balanced ((⟨.lparen, p⟩ :: (inside ++ [t])).map Token.kind) := by
      simpa [kind] using level.enclosed
    simpa using outside.append pair

end Opened

namespace Machine

variable {m m' : Machine} {t : Token} {ts rest : List Token} {fault : SyntaxFault}

theorem run_append (m : Machine) (free : Kind.eof ∉ ts.map Token.kind) (rest : List Token) :
    m.run (ts ++ rest) = (ts.foldlM step m).bind fun next => next.run rest := by
  induction ts generalizing m with
  | nil => rfl
  | cons t ts ih =>
    simp only [List.map_cons, List.mem_cons, not_or] at free
    rw [List.cons_append, run, if_neg (Ne.symm free.1), List.foldlM_cons]
    cases m.step t with
    | error fault => rfl
    | ok next => exact ih next free.2

/-- Tokens are refused at one of them or at their end. -/
theorem refused_cases (m : Machine) (free : Kind.eof ∉ ts.map Token.kind) {stop : Nat}
    (refused : m.run (ts ++ [⟨.eof, stop⟩]) = .error fault) :
    (∃ before k after m', ts = before ++ k :: after ∧ before.foldlM step m = .ok m' ∧
      m'.step k = .error fault) ∨
    (∃ m', ts.foldlM step m = .ok m' ∧ m'.finish (some stop) = .error fault) := by
  induction ts generalizing m with
  | nil => exact .inr ⟨m, rfl, refused⟩
  | cons t ts ih =>
    simp only [List.map_cons, List.mem_cons, not_or] at free
    rw [List.cons_append, run, if_neg (Ne.symm free.1)] at refused
    cases here : m.step t with
    | error fault' =>
      rw [here] at refused
      cases refused
      exact .inl ⟨[], t, ts, m, rfl, rfl, here⟩
    | ok next =>
      rw [here] at refused
      rcases ih next free.2 refused with
        ⟨before, k, after, m', rfl, steps, fails⟩ | ⟨m', steps, fails⟩
      · refine .inl ⟨t :: before, k, after, m', rfl, ?_, fails⟩
        rw [List.foldlM_cons, here]
        exact steps
      · refine .inr ⟨m', ?_, fails⟩
        rw [List.foldlM_cons, here]
        exact steps

/-- Where an argument is expected, the state in which its operand is. -/
def entered (m : Machine) : Machine :=
  match m.expect with
  | .argument _ name inner => ⟨.operand inner, inner, ⟨some name, m.base⟩ :: m.openings⟩
  | _ => m

/-- What one token does: it is an operand or begins one where one is expected, it closes a call
without arguments, it joins operands, it calls the name before it, it closes the innermost
parenthesis, or it goes on to the next argument of the innermost call. -/
inductive Moves (m : Machine) (t : Token) : Machine → Prop
  | literal {here : Nat} (expects : m.entered.expect = .operand (here + 1))
      (opens : t.kind ≠ .lparen) (closes : t.kind ≠ .rparen) :
      Moves m t { m.entered with expect := .after none }
  | name {here : Nat} {n : String} (expects : m.entered.expect = .operand (here + 1))
      (kind : t.kind = .ident n) :
      Moves m t { m.entered with expect := .after (some (t, here - 1)) }
  | negation {here : Nat} (expects : m.entered.expect = .operand (here + 1))
      (kind : t.kind = .not) : Moves m t { m.entered with expect := .operand here }
  | group {here : Nat} (expects : m.entered.expect = .operand (here + 1))
      (kind : t.kind = .lparen) :
      Moves m t ⟨.operand (here - 1), here - 1, ⟨none, m.entered.base⟩ :: m.entered.openings⟩
  | emptyCall {name : Token} {inner : Nat} (expects : m.expect = .argument true name inner)
      (kind : t.kind = .rparen) : Moves m t { m with expect := .after none }
  | operator {callee : Option (Token × Nat)} {op : Operator} (expects : m.expect = .after callee)
      (kind : t.kind = .operator op) : Moves m t { m with expect := .operand m.base }
  | call {name : Token} {inner : Nat} (expects : m.expect = .after (some (name, inner)))
      (kind : t.kind = .lparen) : Moves m t { m with expect := .argument true name inner }
  | close {callee : Option (Token × Nat)} {o : Opening} {others : List Opening}
      (expects : m.expect = .after callee) (kind : t.kind = .rparen)
      (opened : m.openings = o :: others) : Moves m t ⟨.after none, o.base, others⟩
  | comma {callee : Option (Token × Nat)} {name : Token} {base : Nat} {others : List Opening}
      (expects : m.expect = .after callee) (kind : t.kind = .comma)
      (opened : m.openings = ⟨some name, base⟩ :: others) :
      Moves m t ⟨.argument false name m.base, base, others⟩

theorem moves_of_begin {here : Nat} (expects : m.entered.expect = .operand here)
    (begins : m.entered.begin here t = .ok m') : Moves m t m' := by
  cases here with
  | zero => cases begins
  | succ here =>
    simp only [begin] at begins
    split at begins <;> cases begins
    case h_1 | h_2 | h_3 | h_4 => exact .literal expects (by simp [*]) (by simp [*])
    case h_5 kind => exact .name expects kind
    case h_6 kind => exact .negation expects kind
    case h_7 kind => exact .group expects kind

theorem moves_of_step (steps : m.step t = .ok m') : Moves m t m' := by
  cases expects : m.expect with
  | operand here =>
    have same : m.entered = m := by rw [entered, expects]
    rw [step, expects] at steps
    exact moves_of_begin (by rw [same, expects]) (by rw [same]; exact steps)
  | argument first name inner =>
    have same : m.entered = ⟨.operand inner, inner, ⟨some name, m.base⟩ :: m.openings⟩ := by
      rw [entered, expects]
    simp only [step, expects] at steps
    split_ifs at steps with closes
    · cases steps
      obtain ⟨rfl, kind⟩ : first = true ∧ t.kind = .rparen := by simpa using closes
      exact .emptyCall expects kind
    · exact moves_of_begin (by rw [same]) (by rw [same]; exact steps)
  | after callee =>
    simp only [step, expects, proceed] at steps
    split at steps <;> cases steps
    case h_1 kind => exact .operator expects kind
    case h_2 kind => exact .call expects kind
    case h_3 kind opened => exact .close expects kind opened
    case h_4 kind opened => exact .comma expects kind opened

/-- Some budget is left wherever an operand was read. -/
structure Spare (m : Machine) : Prop where
  openings : ∀ o ∈ m.openings, 0 < o.base
  operand : ∀ here, m.expect = .operand here → here ≤ m.base
  argument : ∀ first name inner, m.expect = .argument first name inner →
    0 < m.base ∧ (first = false → 0 < inner)
  after : ∀ callee, m.expect = .after callee → 0 < m.base

theorem spare_start : Spare start := by
  constructor <;> simp [start]

theorem Spare.entered (spare : Spare m) {here : Nat}
    (expects : m.entered.expect = .operand (here + 1)) :
    here + 1 ≤ m.entered.base ∧ ∀ o ∈ m.entered.openings, 0 < o.base := by
  cases found : m.expect with
  | operand here' =>
    have same : m.entered = m := by rw [Machine.entered, found]
    rw [same] at expects ⊢
    exact ⟨spare.operand _ expects, spare.openings⟩
  | argument first name inner =>
    have same : m.entered = ⟨.operand inner, inner, ⟨some name, m.base⟩ :: m.openings⟩ := by
      rw [Machine.entered, found]
    rw [same] at expects ⊢
    obtain rfl := Expectation.operand.inj expects
    exact ⟨le_rfl, List.forall_mem_cons.mpr ⟨(spare.argument _ _ _ found).1, spare.openings⟩⟩
  | after callee =>
    have same : m.entered = m := by rw [Machine.entered, found]
    rw [same, found] at expects
    cases expects

theorem Spare.moves (spare : Spare m) (moves : Moves m t m') : Spare m' := by
  cases moves with
  | literal expects | name expects =>
    obtain ⟨budget, openings⟩ := spare.entered expects
    exact ⟨openings, by simp, by simp, fun _ _ => by simp only; omega⟩
  | negation expects =>
    obtain ⟨budget, openings⟩ := spare.entered expects
    refine ⟨openings, fun here same => ?_, by simp, by simp⟩
    cases same
    exact Nat.le_of_succ_le budget
  | group expects =>
    obtain ⟨budget, openings⟩ := spare.entered expects
    refine ⟨?_, fun here same => ?_, by simp, by simp⟩
    · exact List.forall_mem_cons.mpr ⟨by simp only; omega, openings⟩
    · cases same
      exact le_rfl
  | emptyCall expects =>
    exact ⟨spare.openings, by simp, by simp, fun _ _ => (spare.argument _ _ _ expects).1⟩
  | operator expects =>
    refine ⟨spare.openings, fun here same => ?_, by simp, by simp⟩
    cases same
    exact le_rfl
  | call expects =>
    refine ⟨spare.openings, by simp, fun first name inner same => ?_, by simp⟩
    cases same
    exact ⟨spare.after _ expects, by simp⟩
  | close expects kind opened =>
    have bases := List.forall_mem_cons.mp (opened ▸ spare.openings)
    exact ⟨bases.2, by simp, by simp, fun _ _ => bases.1⟩
  | comma expects kind opened =>
    have bases := List.forall_mem_cons.mp (opened ▸ spare.openings)
    refine ⟨bases.2, by simp, fun first name inner same => ?_, by simp⟩
    cases same
    exact ⟨bases.1, fun _ => spare.after _ expects⟩

/-- The open parentheses by the names that they call, that of an argument to come among them. -/
def callers (m : Machine) : List (Option Token) :=
  match m.expect with
  | .argument _ name _ => some name :: m.openings.map Opening.call?
  | _ => m.openings.map Opening.call?

/-- The machine knows the parentheses that are open after tokens, and a name that comes last. -/
structure Tracks (m : Machine) (ts : List Token) : Prop where
  opened : Opened m.callers ts
  callee : ∀ name inner, m.expect = .after (some (name, inner)) →
    ∃ front n, ts = front ++ [name] ∧ name.kind = .ident n

theorem tracks_start : Tracks start [] :=
  ⟨.none .nil, by simp [start]⟩

theorem callers_entered (m : Machine) : m.entered.callers = m.callers := by
  cases found : m.expect <;> simp [callers, entered, found]

theorem callers_eq {here : Nat} (expects : m.entered.expect = .operand here) :
    m.callers = m.entered.openings.map Opening.call? := by
  rw [← callers_entered, callers, expects]

theorem Tracks.moves (tracks : Tracks m ts) (moves : Moves m t m') : Tracks m' (ts ++ [t]) := by
  have opened := tracks.opened
  cases moves with
  | literal expects opens closes =>
    rw [callers_eq expects] at opened
    exact ⟨opened.push opens closes, by simp⟩
  | @name here n expects kind =>
    rw [callers_eq expects] at opened
    refine ⟨opened.push (by simp [kind]) (by simp [kind]), fun name inner same => ?_⟩
    cases same
    exact ⟨ts, n, rfl, kind⟩
  | negation expects kind =>
    rw [callers_eq expects] at opened
    exact ⟨opened.push (by simp [kind]) (by simp [kind]), by simp⟩
  | group expects kind =>
    rw [callers_eq expects] at opened
    obtain ⟨_, p⟩ := t
    obtain rfl := kind
    exact ⟨opened.group .nil, by simp⟩
  | emptyCall expects kind =>
    rw [callers, expects] at opened
    exact ⟨opened.close kind, by simp⟩
  | operator expects kind =>
    rw [callers, expects] at opened
    exact ⟨opened.push (by simp [kind]) (by simp [kind]), by simp⟩
  | @call name inner expects kind =>
    obtain ⟨front, n, rfl, named⟩ := tracks.callee name inner expects
    rw [callers, expects] at opened
    obtain ⟨_, p⟩ := t
    obtain rfl := kind
    have called : Opened (some name :: m.openings.map Opening.call?)
        (front ++ name :: ⟨.lparen, p⟩ :: []) := opened.call named .nil
    refine ⟨?_, by simp⟩
    rw [List.append_assoc]
    exact called
  | close expects kind found =>
    rw [callers, expects] at opened
    simp only [found, List.map_cons] at opened
    exact ⟨opened.close kind, by simp⟩
  | comma expects kind found =>
    rw [callers, expects] at opened
    simp only [found, List.map_cons] at opened
    exact ⟨opened.push (by simp [kind]) (by simp [kind]), by simp⟩

/-- What holds where a condition begins and is kept by every token holds after any tokens. -/
theorem reaches {before : List Token} (steps : before.foldlM step start = .ok m) :
    Spare m ∧ Tracks m before := by
  have run : ∀ (ts front : List Token) (n : Machine), Spare n ∧ Tracks n front →
      ts.foldlM step n = .ok m → Spare m ∧ Tracks m (front ++ ts) := by
    intro ts
    induction ts with
    | nil =>
      intro front n holds steps
      cases steps
      simpa using holds
    | cons t ts ih =>
      intro front n holds steps
      rw [List.foldlM_cons] at steps
      cases here : n.step t with
      | error fault =>
        rw [here] at steps
        cases steps
      | ok next =>
        rw [here] at steps
        have moves := moves_of_step here
        have rest := ih (front ++ [t]) next ⟨holds.1.moves moves, holds.2.moves moves⟩ steps
        simpa using rest
  exact run before [] start ⟨spare_start, tracks_start⟩ steps

theorem run_closers (base : Nat) (os : List Opening) (stop : Nat) :
    (behind base os).run (List.replicate os.length ⟨.rparen, 0⟩ ++ [⟨.eof, stop⟩]) = .ok () := by
  induction os generalizing base with
  | nil => rfl
  | cons o os ih =>
    rw [List.length_cons, List.replicate_succ, List.cons_append, run_rparen]
    exact ih o.base

/-- A missing operand and the missing parentheses complete any tokens. -/
theorem Spare.completes (spare : Spare m) (able : m.expect ≠ .operand 0) :
    ∃ more : List Token, Kind.eof ∉ more.map Token.kind ∧
      ∀ stop, m.run (more ++ [⟨.eof, stop⟩]) = .ok () := by
  obtain ⟨expect, base, os⟩ := m
  cases expect with
  | operand here =>
    have left : here ≠ 0 := fun none => able (congrArg Expectation.operand none)
    obtain ⟨here, rfl⟩ := Nat.exists_eq_succ_of_ne_zero left
    refine ⟨⟨.null, 0⟩ :: List.replicate os.length ⟨.rparen, 0⟩, by simp, fun stop => ?_⟩
    exact run_closers base os stop
  | argument first name inner =>
    cases first with
    | true =>
      refine ⟨⟨.rparen, 0⟩ :: List.replicate os.length ⟨.rparen, 0⟩, by simp, fun stop => ?_⟩
      exact run_closers base os stop
    | false =>
      have left := (spare.argument false name inner rfl).2 rfl
      obtain ⟨inner, rfl⟩ := Nat.exists_eq_succ_of_ne_zero left.ne'
      refine ⟨⟨.null, 0⟩ :: List.replicate (os.length + 1) ⟨.rparen, 0⟩, by simp, fun stop => ?_⟩
      exact run_closers (inner + 1) (⟨some name, base⟩ :: os) stop
  | after callee =>
    refine ⟨List.replicate os.length ⟨.rparen, 0⟩, by simp, fun stop => ?_⟩
    rw [run_of_bare (by cases os <;> simp [nextKind, List.replicate_succ])]
    exact run_closers base os stop

/-- A fault at a token is its own, unless the token is refused for its depth. -/
theorem position_of_step (fails : m.step t = .error fault)
    (shallow : fault.cause ≠ .nestedTooDeeply) :
    fault.position = some t.position ∧ m.expect ≠ .operand 0 := by
  have begins (n : Machine) (here : Nat) (fails : n.begin here t = .error fault) :
      fault.position = some t.position ∧ here ≠ 0 := by
    cases here with
    | zero =>
      cases fails
      exact absurd rfl shallow
    | succ here =>
      simp only [begin] at fails
      split at fails <;> cases fails
      exact ⟨rfl, Nat.succ_ne_zero here⟩
  cases expects : m.expect with
  | operand here =>
    rw [step, expects] at fails
    obtain ⟨position, some⟩ := begins m here fails
    exact ⟨position, fun none => some (Expectation.operand.inj none)⟩
  | argument first name inner =>
    simp only [step, expects] at fails
    split_ifs at fails
    exact ⟨(begins _ inner fails).1, Expectation.noConfusion⟩
  | after callee =>
    simp only [step, expects, proceed] at fails
    split at fails <;> cases fails
    refine ⟨?_, Expectation.noConfusion⟩
    simp only [refusal]
    split <;> rfl

/-- A fault at the end is about it or about the call that is still open there. -/
theorem finish_cases {stop : Nat} (fails : m.finish (some stop) = .error fault)
    (shallow : fault.cause ≠ .nestedTooDeeply) :
    m.expect ≠ .operand 0 ∧ (fault.position = some stop ∨
      ∃ name others, m.callers = some name :: others ∧
        fault = ⟨.unclosedCall name.kind.content, some name.position⟩) := by
  cases expects : m.expect with
  | operand here =>
    cases here with
    | zero =>
      simp only [finish, expects] at fails
      cases fails
      exact absurd rfl shallow
    | succ here =>
      simp only [finish, expects] at fails
      cases fails
      exact ⟨by simp, .inl rfl⟩
  | argument first name inner =>
    simp only [finish, expects] at fails
    cases fails
    exact ⟨by simp, .inr ⟨name, _, by rw [callers, expects], rfl⟩⟩
  | after callee =>
    simp only [finish, expects] at fails
    refine ⟨by simp, ?_⟩
    split at fails <;> cases fails
    case h_2 => exact .inl rfl
    case h_3 name base others opened =>
      exact .inr ⟨name, others.map Opening.call?, by simp [callers, expects, opened], rfl⟩

end Machine

open Machine

theorem parseTokens_eq_ok_iff {tokens : List Token} :
    (∃ t, parseTokens tokens = .ok t) ↔ start.run tokens = .ok () := by
  rw [run_start]
  cases parseTokens tokens <;> simp [Except.map]

theorem parseTokens_eq_error_iff {tokens : List Token} {fault : SyntaxFault} :
    parseTokens tokens = .error fault ↔ start.run tokens = .error fault := by
  rw [run_start]
  cases parseTokens tokens <;> simp [Except.map]

/-- Tokens after which an operand, an operator or a parenthesis can be taken can be completed. -/
theorem completes_of_reaches {m : Machine} {ts : List Token} (free : Kind.eof ∉ ts.map Token.kind)
    (steps : ts.foldlM step start = .ok m) (able : m.expect ≠ .operand 0) : Completes ts := by
  obtain ⟨more, none, accepted⟩ := (reaches steps).1.completes able
  have whole : start.run (ts ++ (more ++ [⟨.eof, 0⟩])) = .ok () := by
    rw [run_append start free, steps]
    exact accepted 0
  obtain ⟨t, read⟩ := parseTokens_eq_ok_iff.mpr whole
  exact ⟨more, 0, t, none, read⟩

/-- Tokens that are refused whatever follows them, and not for their depth, begin no condition. -/
theorem not_writes_of_refused {before : List Token} {fault : SyntaxFault}
    (refused : ∀ rest, parseTokens (before ++ rest) = .error fault)
    (shallow : fault.cause ≠ .nestedTooDeeply) (ks : List Kind) (t : Tree) :
    ¬Writes (before.map Token.kind ++ ks) t := by
  intro writes
  have kinds : (before ++ unplaced ks).map Token.kind = before.map Token.kind ++ ks := by
    rw [List.map_append, kinds_unplaced]
  let budget := (before.map Token.kind ++ ks).length + depthLimit
  have long : disjunction (budget + 2) ((before ++ unplaced ks) ++ []) = .ok (t, []) :=
    disjunction_of_writes writes kinds rfl (Nat.le_add_right _ _)
  rw [List.append_nil] at long
  have here := refused (unplaced ks)
  have accepted : ¬TooDeep (disjunction depthLimit (before ++ unplaced ks)) := by
    rw [← tooDeep_parseTokens_iff, here]
    simpa using shallow
  have same := disjunction_extends (by omega : depthLimit ≤ budget + 2) _ accepted
  simp only [parseTokens, same.symm.trans long] at here
  cases here

/-- Where the tokens of a text are refused, other than for their depth, the fault points at the
first token with which they begin no condition or at the call that the end cuts off. -/
theorem parseTokens_pinpoints {text : String} {tokens : List Token} {fault : SyntaxFault}
    (lexed : tokenize text = .ok tokens) (refused : parseTokens tokens = .error fault)
    (shallow : fault.cause ≠ .nestedTooDeeply) :
    ∃ ts stop, tokens = ts ++ [⟨.eof, stop⟩] ∧ Pinpoints ts stop fault := by
  obtain ⟨lexes, -, ts, stop, rfl, kinds⟩ := tokens_of_tokenize lexed
  have free : Kind.eof ∉ ts.map Token.kind := kinds ▸ lexes.eof_notMem
  refine ⟨ts, stop, rfl, ?_⟩
  rcases refused_cases start free (parseTokens_eq_error_iff.mp refused) with
    ⟨before, k, after, m, rfl, steps, fails⟩ | ⟨m, steps, fails⟩
  · obtain ⟨position, able⟩ := position_of_step fails shallow
    simp only [List.map_append, List.map_cons, List.mem_append, List.mem_cons, not_or] at free
    obtain ⟨before_free, visible, -⟩ := free
    have always : ∀ rest, parseTokens (before ++ k :: rest) = .error fault := by
      intro rest
      rw [parseTokens_eq_error_iff, run_append start before_free, steps]
      simp only [Except.bind, run, if_neg (Ne.symm visible), fails]
    have never : ¬Completes (before ++ k :: after) := by
      rintro ⟨more, stop, t, -, read⟩
      have same := always (after ++ (more ++ [⟨.eof, stop⟩]))
      rw [List.append_assoc, List.cons_append, same] at read
      cases read
    have whole := List.append_assoc before (k :: after) [⟨.eof, stop⟩]
    refine .token whole position (completes_of_reaches before_free steps able) always ?_
      (iff_of_false (Ne.symm visible) never)
    exact not_writes_of_refused (fun rest => by simpa using always rest) shallow
  · obtain ⟨able, place | ⟨name, others, opened, rfl⟩⟩ := finish_cases fails shallow
    · have completes := completes_of_reaches free steps able
      have always : ∀ rest, parseTokens (ts ++ ⟨.eof, stop⟩ :: rest) = .error fault := by
        intro rest
        rw [parseTokens_eq_error_iff, run_append start free, steps]
        exact fails
      refine .token rfl place completes always ?_ (iff_of_true rfl completes)
      exact not_writes_of_refused (fun rest => by simpa using always rest) shallow
    · have tracks := (reaches steps).2.opened
      rw [opened] at tracks
      cases tracks with
      | call named _ balanced =>
        exact .unclosed rfl named balanced (by rw [named]; rfl)
          (completes_of_reaches free steps able)

/-- The tokens of `f(a, (b)`. -/
def tokensOfCutOff : List Token :=
  [⟨.ident "f", 0⟩, ⟨.lparen, 1⟩, ⟨.ident "a", 2⟩, ⟨.comma, 3⟩, ⟨.lparen, 5⟩, ⟨.ident "b", 6⟩,
    ⟨.rparen, 7⟩, ⟨.eof, 8⟩]

/-- The tokens of `!a b`. -/
def tokensOfAdjacent : List Token :=
  [⟨.not, 0⟩, ⟨.ident "a", 1⟩, ⟨.ident "b", 3⟩, ⟨.eof, 4⟩]

theorem parseTokens_pinpoints_samples :
    (tokenize "f(a, (b)" = .ok tokensOfCutOff ∧
      parseTokens tokensOfCutOff = .error ⟨.unclosedCall "f", some 0⟩ ∧
      ∃ ts stop, tokensOfCutOff = ts ++ [⟨.eof, stop⟩] ∧
        Pinpoints ts stop ⟨.unclosedCall "f", some 0⟩) ∧
    (tokenize "!a b" = .ok tokensOfAdjacent ∧
      parseTokens tokensOfAdjacent = .error ⟨.unexpectedToken "b", some 3⟩ ∧
      ∃ ts stop, tokensOfAdjacent = ts ++ [⟨.eof, stop⟩] ∧
        Pinpoints ts stop ⟨.unexpectedToken "b", some 3⟩) := by
  have cutOff : tokenize "f(a, (b)" = .ok tokensOfCutOff := by decide +kernel
  have unclosed : parseTokens tokensOfCutOff = .error ⟨.unclosedCall "f", some 0⟩ :=
    parseTokens_eq_error_iff.mpr rfl
  have adjacent : tokenize "!a b" = .ok tokensOfAdjacent := by decide +kernel
  have unexpected : parseTokens tokensOfAdjacent = .error ⟨.unexpectedToken "b", some 3⟩ :=
    parseTokens_eq_error_iff.mpr rfl
  exact ⟨⟨cutOff, unclosed, parseTokens_pinpoints cutOff unclosed Cause.noConfusion⟩,
    adjacent, unexpected, parseTokens_pinpoints adjacent unexpected Cause.noConfusion⟩

end Drydock.Expr
