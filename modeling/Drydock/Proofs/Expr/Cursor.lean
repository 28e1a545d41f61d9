import Drydock.Proofs.Expr.Automaton
import Drydock.Proofs.Expr.Nesting

set_option autoImplicit false
set_option relaxedAutoImplicit false

/-!
The parser as a cursor that moves over all tokens, even past their end, and notes what it does. Its
loops and calls have no budget, so a run may have no end. Main statements: what a disciplined run
notes, and the rules by which a run goes along with a reader of the tokens that are left.
-/

namespace Drydock.Expr

/-- What a function of the parser reads: a condition up to its end, a phrase of a level, or the
parentheses behind the name of a call. -/
inductive Production
  | whole
  | level (l : Level)
  | call (name : Token)

/-- What is noted of a run: the cursor looks at a place, it takes the token there, a pass of a loop
goes through, a function returns a tree. -/
inductive Event
  | looks (place : Nat)
  | takes (place : Nat)
  | repeats (start stop : Nat)
  | returns (p : Production) (t : Tree) (start stop : Nat)

/-- The place of the next token among all tokens, and what was noted, the latest first. -/
structure Cursor where
  position : Nat
  events : List Event

/-- A part of the parser. Where it does not end it has no outcome. -/
abbrev Parsing := ReaderT (List Token) (ExceptT SyntaxFault (StateT Cursor Option))

namespace Parsing

/-- The place of the cursor. -/
def here : Parsing Nat :=
  return (← get).position

/-- Notes an event. -/
def note (e : Event) : Parsing Unit :=
  modify fun c => { c with events := e :: c.events }

/-- The token at the cursor; past the end of the tokens, the last one. -/
def current : Parsing Token := do
  let tokens ← read
  let place ← here
  note (.looks place)
  return tokens[place]?.getD (tokens.getLastD ⟨.eof, 0⟩)

/-- Takes the token at the cursor. -/
def advance : Parsing Token := do
  let t ← current
  note (.takes (← here))
  modify fun c => { c with position := c.position + 1 }
  return t

/-- A fault at the token at the cursor. -/
def refuse {α : Type} (cause : Cause) : Parsing α := do
  throw ⟨cause, some (← current).position⟩

end Parsing

open Parsing

mutual

/-- A call of the function that reads a production. -/
def Production.read (p : Production) : Parsing Tree := do
  let start ← here
  let t ← p |>.body
  note (.returns p t start (← here))
  return t
partial_fixpoint

/-- What a function does to read its production. -/
def Production.body : Production → Parsing Tree
  | .whole => do
    let t ← Production.level .disjunction |>.read
    if (← current).kind = .eof then return t
    else refuse (.unexpectedToken (← current).kind.content)
  | .level .disjunction => do
    let left ← Production.level .conjunction |>.read
    Level.disjunction |>.operations .conjunction left
  | .level .conjunction => do
    let left ← Production.level .equality |>.read
    Level.conjunction |>.operations .equality left
  | .level .equality => do
    let left ← Production.level .relation |>.read
    Level.equality |>.operations .relation left
  | .level .relation => do
    let left ← Production.level .negation |>.read
    Level.relation |>.operations .negation left
  | .level .negation => do
    if (← current).kind = .not then
      let _ ← advance
      return .not (← Production.level .negation |>.read)
    else Production.level .primary |>.read
  | .level .primary => do
    let t ← current
    match t.kind with
    | .text content =>
      let _ ← advance
      return .literal (.text content)
    | .number digits =>
      let _ ← advance
      return .literal (.float ((Number.readFloat? digits.toList).getD 0))
    | .bool b =>
      let _ ← advance
      return .literal (.bool b)
    | .null =>
      let _ ← advance
      return .literal .null
    | .ident name =>
      let _ ← advance
      if (← current).kind = .lparen then Production.call t |>.read else return .path name
    | .lparen =>
      let _ ← advance
      let inner ← Production.level .disjunction |>.read
      if (← current).kind = .rparen then
        let _ ← advance
        return inner
      else refuse .unclosedGroup
    | .eof => refuse .endOfExpression
    | kind => refuse (.unexpectedToken kind.content)
  | .call name => do
    let _ ← advance
    if (← current).kind = .rparen then
      let _ ← advance
      return .call name.kind.content []
    else return .call name.kind.content (← name |>.arguments [])
partial_fixpoint

/-- The operators of a level and their right operands, behind a left operand. -/
def Level.operations (l operand : Level) (left : Tree) : Parsing Tree := do
  let start ← here
  match l.operator? (← current).kind with
  | none => return left
  | some op =>
    let _ ← advance
    let right ← Production.level operand |>.read
    note (.repeats start (← here))
    l |>.operations operand (.binary op left right)
partial_fixpoint

/-- The arguments of a call, behind those that are read. -/
def Token.arguments (name : Token) (args : List Tree) : Parsing (List Tree) := do
  let start ← here
  if (← current).kind = .eof then
    throw ⟨.unclosedCall name.kind.content, some name.position⟩
  else
    let arg ← Production.level .disjunction |>.read
    match (← current).kind with
    | .comma =>
      let _ ← advance
      note (.repeats start (← here))
      name |>.arguments (args ++ [arg])
    | .rparen =>
      let _ ← advance
      note (.repeats start (← here))
      return args ++ [arg]
    | .eof => throw ⟨.unclosedCall name.kind.content, some name.position⟩
    | _ => refuse (.missingSeparator name.kind.content)
partial_fixpoint

end

namespace Parsing

variable {α β : Type}

/-- The outcome of a part of the parser from a cursor, if it ends. -/
def run (p : Parsing α) (tokens : List Token) (c : Cursor) :
    Option (Except SyntaxFault α × Cursor) :=
  p tokens c

/-- What the cursor comes to from the first token on, and where it stands then. -/
def parse? (tokens : List Token) : Option (Except SyntaxFault Tree × Cursor) :=
  Production.whole.read.run tokens ⟨0, []⟩

section Outcome

variable {tokens : List Token} {c c' : Cursor} {p : Parsing α} {k : α → Parsing β} {t : Token}

theorem run_bind_of_ok {a : α} (first : p.run tokens c = some (.ok a, c')) :
    (p >>= k).run tokens c = (k a).run tokens c' := by
  change Option.bind (p.run tokens c) _ = _
  rw [first]
  rfl

theorem run_bind_of_error {fault : SyntaxFault} (first : p.run tokens c = some (.error fault, c')) :
    (p >>= k).run tokens c = some (.error fault, c') := by
  change Option.bind (p.run tokens c) _ = _
  rw [first]
  rfl

theorem run_bind_of_none (first : p.run tokens c = none) : (p >>= k).run tokens c = none := by
  change Option.bind (p.run tokens c) _ = _
  rw [first]
  rfl

theorem run_note (e : Event) :
    (note e).run tokens c = some (.ok (), { c with events := e :: c.events }) :=
  rfl

theorem run_current (next : tokens[c.position]? = some t) :
    current.run tokens c = some (.ok t, { c with events := .looks c.position :: c.events }) := by
  change some (Except.ok (tokens[c.position]?.getD _), _) = _
  rw [next]
  rfl

theorem run_advance (next : tokens[c.position]? = some t) :
    advance.run tokens c =
      some (.ok t, ⟨c.position + 1, .takes c.position :: .looks c.position :: c.events⟩) := by
  rw [advance, run_bind_of_ok (run_current next)]
  rfl

/-- A function that returns a tree notes that it does. -/
theorem returns_mem_of_run {p : Production} {t : Tree}
    (ran : p.read.run tokens c = some (.ok t, c')) :
    .returns p t c.position c'.position ∈ c'.events := by
  have start : here.run tokens c = some (.ok c.position, c) := rfl
  rw [Production.read, run_bind_of_ok start] at ran
  cases inner : p.body.run tokens c with
  | none =>
    rw [run_bind_of_none inner] at ran
    cases ran
  | some outcome =>
    obtain ⟨fault | t', after⟩ := outcome
    · rw [run_bind_of_error inner] at ran
      cases ran
    · rw [run_bind_of_ok inner] at ran
      cases ran
      exact List.mem_cons_self

end Outcome

end Parsing

section Discipline

/-- The kinds of the tokens from one place up to another. -/
def kindsBetween (tokens : List Token) (start stop : Nat) : List Kind :=
  ((tokens.drop start).take (stop - start)).map Token.kind

/-- The level at which a production writes a tree. -/
def Production.treeLevel : Production → Level
  | .whole => .disjunction
  | .level l => l
  | .call _ => .primary

/-- The first place of a production whose function is called at a place: the name of a call stands
before its parentheses. -/
def Production.origin (start : Nat) : Production → Nat
  | .call _ => start - 1
  | _ => start

/-- The cursor looks at tokens alone, and takes none that is the end; a pass of a loop takes a
token; a function that returns a tree has taken tokens that write it, and stops at one with which
they cannot go on. -/
def Event.IsDisciplined (tokens : List Token) : Event → Prop
  | .looks place => place < tokens.length
  | .takes place => ∃ t, tokens[place]? = some t ∧ t.kind ≠ .eof
  | .repeats start stop => start < stop
  | .returns p t start stop => start < stop ∧ ∃ next, tokens[stop]? = some next ∧
      Derives (.tree p.treeLevel t) (kindsBetween tokens (p.origin start) stop) next.kind ∧
      p.treeLevel.EndsBefore (kindsBetween tokens (p.origin start) stop) next.kind

/-- A cursor stands among the tokens, after it took those before it and did nothing but what is
disciplined. -/
structure Cursor.InOrder (tokens : List Token) (c : Cursor) : Prop where
  within : c.position < tokens.length
  taken : ∀ place < c.position, .takes place ∈ c.events
  disciplined : ∀ e ∈ c.events, e.IsDisciplined tokens

theorem Cursor.InOrder.cons {tokens : List Token} {c : Cursor} (inOrder : c.InOrder tokens)
    {e : Event} (disciplined : e.IsDisciplined tokens) :
    Cursor.InOrder tokens { c with events := e :: c.events } where
  within := inOrder.within
  taken place before := List.mem_cons_of_mem e (inOrder.taken place before)
  disciplined := List.forall_mem_cons.mpr ⟨disciplined, inOrder.disciplined⟩

end Discipline

section Places

variable {tokens r : List Token} {t : Token} {i : Nat}

/-- The last token is the end. -/
def HasEnd (tokens : List Token) : Prop :=
  ∃ ts stop, tokens = ts ++ [⟨.eof, stop⟩]

theorem getElem?_of_drop (left : tokens.drop i = t :: r) : tokens[i]? = some t := by
  rw [← List.head?_drop, left, List.head?_cons]

theorem drop_succ_of_drop (left : tokens.drop i = t :: r) : tokens.drop (i + 1) = r := by
  rw [← List.tail_drop, left, List.tail_cons]

theorem exists_drop_eq_cons (within : i < tokens.length) : ∃ t r, tokens.drop i = t :: r :=
  ⟨_, _, List.drop_eq_getElem_cons within⟩

/-- Behind a token that is not the end there is another. -/
theorem HasEnd.lt_length (ended : HasEnd tokens) (left : tokens.drop i = t :: r)
    (visible : t.kind ≠ .eof) : i + 1 < tokens.length := by
  obtain ⟨ts, stop, rfl⟩ := ended
  have within : i < (ts ++ [⟨.eof, stop⟩] : List Token).length :=
    (List.getElem?_eq_some_iff.mp (getElem?_of_drop left)).1
  by_contra last
  have place : i = ts.length := by
    simp only [List.length_append, List.length_singleton] at within last
    omega
  rw [place, List.drop_left] at left
  cases left
  exact visible rfl

end Places

namespace Parsing

/-- From a place among the tokens a part of the parser ends, in order, with what a reader makes of
the tokens that are left, unless the reader refuses those for their depth. -/
def Runs {α : Type} (tokens : List Token) (p : Parsing α) (i : Nat)
    (x : Except SyntaxFault (α × List Token)) : Prop :=
  ¬TooDeep x → ∀ events, Cursor.InOrder tokens ⟨i, events⟩ →
    ∃ result c, p.run tokens ⟨i, events⟩ = some (result, c) ∧ c.InOrder tokens ∧
      x = result.map fun a => (a, tokens.drop c.position)

namespace Runs

variable {α β : Type} {tokens r : List Token} {i : Nat} {t : Token} {fault : SyntaxFault}
  {x : Except SyntaxFault (α × List Token)} {y : Except SyntaxFault (β × List Token)}

theorem pure (a : α) : Runs tokens (pure a) i (.ok (a, tokens.drop i)) :=
  fun _ events inOrder => ⟨.ok a, ⟨i, events⟩, rfl, inOrder, rfl⟩

theorem throw : Runs tokens (throw fault : Parsing α) i (.error fault) :=
  fun _ events inOrder => ⟨.error fault, ⟨i, events⟩, rfl, inOrder, rfl⟩

/-- One part after another: a fault of the first is the fault of both, and where it comes out well
the second goes on from where the cursor stands then. -/
theorem bind {p : Parsing α} {k : α → Parsing β} (first : Runs tokens p i x)
    (fails : ∀ fault, x = .error fault → y = .error fault)
    (goes : ∀ a j, j < tokens.length → x = .ok (a, tokens.drop j) → Runs tokens (k a) j y) :
    Runs tokens (p >>= k) i y := by
  intro shallow events inOrder
  have accepted : ¬TooDeep x := by
    rintro ⟨position, deep⟩
    exact shallow ⟨position, fails _ deep⟩
  obtain ⟨result, c, ran, order, same⟩ := first accepted events inOrder
  cases result with
  | error fault => exact ⟨.error fault, c, run_bind_of_error ran, order, fails fault same⟩
  | ok a =>
    rw [run_bind_of_ok ran]
    exact goes a c.position order.within same shallow c.events order

theorem here {k : Nat → Parsing β} (next : Runs tokens (k i) i y) : Runs tokens (here >>= k) i y :=
  next

theorem note {e : Event} {k : Unit → Parsing β} (disciplined : e.IsDisciplined tokens)
    (next : Runs tokens (k ()) i y) : Runs tokens (note e >>= k) i y := by
  intro shallow events inOrder
  rw [run_bind_of_ok (run_note e)]
  exact next shallow _ (inOrder.cons disciplined)

theorem current {k : Token → Parsing β} (left : tokens.drop i = t :: r)
    (next : Runs tokens (k t) i y) : Runs tokens (current >>= k) i y := by
  intro shallow events inOrder
  rw [run_bind_of_ok (run_current (getElem?_of_drop left))]
  exact next shallow _ (inOrder.cons inOrder.within)

theorem advance (ended : HasEnd tokens) {k : Token → Parsing β} (left : tokens.drop i = t :: r)
    (visible : t.kind ≠ .eof) (next : Runs tokens (k t) (i + 1) y) :
    Runs tokens (advance >>= k) i y := by
  intro shallow events inOrder
  have here := getElem?_of_drop left
  have looked : Cursor.InOrder tokens ⟨i, .looks i :: events⟩ := inOrder.cons inOrder.within
  have taken : Cursor.InOrder tokens ⟨i, .takes i :: .looks i :: events⟩ :=
    looked.cons ⟨t, here, visible⟩
  rw [run_bind_of_ok (run_advance here)]
  refine next shallow _ ⟨ended.lt_length left visible, fun place before => ?_, taken.disciplined⟩
  rcases Nat.lt_succ_iff_lt_or_eq.mp before with earlier | rfl
  · exact taken.taken place earlier
  · exact List.mem_cons_self

theorem refuse {cause : Cause} (left : tokens.drop i = t :: r) :
    Runs tokens (refuse cause : Parsing α) i (.error ⟨cause, some t.position⟩) :=
  current left throw

theorem read {p : Production} {x : Except SyntaxFault (Tree × List Token)}
    (inner : Runs tokens p.body i x)
    (returns : ∀ t j, j < tokens.length → x = .ok (t, tokens.drop j) →
      (Event.returns p t i j).IsDisciplined tokens) :
    Runs tokens p.read i x := by
  rw [Production.read]
  refine here (inner.bind (fun _ => id) fun t j within read => ?_)
  rw [read]
  exact here (note (returns t j within read) (pure t))

end Runs

end Parsing

end Drydock.Expr
