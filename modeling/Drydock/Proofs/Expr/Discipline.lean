import Drydock.Proofs.Expr.Cursor
import Drydock.Proofs.Expr.Exactness

set_option autoImplicit false
set_option relaxedAutoImplicit false

/-!
How the cursor of the parser moves. Main statement: on the tokens of every text the cursor comes to
an end, with what the parser makes of them; it never stands behind the last token, every pass of a
loop takes a token, and every function that returns a tree has taken the tokens that write it and
stops at one with which they cannot go on.
-/

namespace Drydock.Expr

/-- Tokens as texts have them: their numbers can be read, and the last one is the end. -/
structure IsLexed (tokens : List Token) : Prop where
  readable : Readable tokens
  ended : HasEnd tokens

/-- A reader reads what a level writes, and stops where the level does. -/
structure Governs (l : Level) (reader : Reader Tree) : Prop where
  sound : Sound reader (.tree l)
  ends : Ends l reader

section Levels

variable {l inner : Level} {reader : Reader Tree} {tokens : List Token} {t : Tree}
  {first start stop : Nat}

theorem Governs.level (outer : Level) (below : outer.operand? = some inner)
    (governs : Governs inner reader) : Governs outer (level outer.operator? reader) :=
  ⟨level_sound outer below governs.sound, level_ends outer below governs.ends⟩

theorem Governs.primary (groups : Governs .disjunction reader) :
    Governs .primary (primary reader) := by
  refine ⟨primary_sound groups.sound, fun tokens t rest read => ?_⟩
  obtain ⟨shorter, stops⟩ := primary_ends groups.ends tokens t rest read
  exact ⟨shorter, stops.below rfl⟩

theorem governs_disjunction (n : Nat) : Governs .disjunction (disjunction n) :=
  ⟨(reader_sound n).1, (reader_ends n).1⟩

theorem governs_negation (n : Nat) : Governs .negation (negation n) :=
  ⟨(reader_sound n).2, (reader_ends n).2⟩

theorem Ends.lt (ends : Ends l reader)
    (read : reader (tokens.drop start) = .ok (t, tokens.drop stop)) : start < stop := by
  have shorter := (ends _ _ _ read).1
  simp only [List.length_drop] at shorter
  omega

/-- A tree that a reader reads from where a production begins is returned in order. -/
theorem Governs.returns (governs : Governs l reader) (readable : Readable tokens) {p : Production}
    (writes : p.treeLevel = l) (begins : p.origin start = first)
    (read : reader (tokens.drop first) = .ok (t, tokens.drop stop))
    (within : stop < tokens.length) (taken : start < stop) :
    (Event.returns p t start stop).IsDisciplined tokens := by
  subst writes begins
  have left : Readable (tokens.drop (p.origin start)) :=
    fun t member => readable t (List.mem_of_mem_drop member)
  obtain ⟨ts, whole, derived⟩ := governs.sound _ _ _ left read
  have stops := (governs.ends _ _ _ read).2
  obtain ⟨next, r, rest⟩ := exists_drop_eq_cons within
  have between : kindsBetween tokens (p.origin start) stop = ts.map Token.kind := by
    have count : ts.length = stop - p.origin start := by
      have lengths := congrArg List.length whole
      simp only [List.length_append, List.length_drop] at lengths
      omega
    rw [kindsBetween, whole, ← count, List.take_left]
  rw [rest, nextKind_cons] at derived stops
  refine ⟨taken, next, getElem?_of_drop rest, ?_⟩
  rw [between]
  exact ⟨derived, derived.endsBefore stops⟩

end Levels

namespace Parsing

/-- From all places among the tokens a part of the parser goes along with a reader. -/
def Reads (tokens : List Token) (p : Parsing Tree) (reader : Reader Tree) : Prop :=
  ∀ i, i < tokens.length → Runs tokens p i (reader (tokens.drop i))

variable {tokens : List Token} {reader : Reader Tree}

section Functions

theorem Reads.read {l : Level} (lexed : IsLexed tokens) (governs : Governs l reader)
    (inner : Reads tokens (Production.level l).body reader) :
    Reads tokens (Production.level l).read reader := by
  intro i within
  refine (inner i within).read fun t j inside read => ?_
  exact governs.returns lexed.readable rfl rfl read inside (governs.ends.lt read)

/-- The budget of the reader bounds the operators by the tokens that are left, which become fewer
with every pass. -/
theorem operations_runs {l inner : Level} (lexed : IsLexed tokens) (ends : Ends inner reader)
    (operands : Reads tokens (Production.level inner).read reader) (fuel : Nat) (left : Tree)
    {i : Nat} (within : i < tokens.length) (enough : (tokens.drop i).length ≤ fuel) :
    Runs tokens (l.operations inner left) i
      (extend l.operator? reader fuel left (tokens.drop i)) := by
  induction fuel generalizing left i with
  | zero =>
    rw [List.length_drop] at enough
    omega
  | succ fuel ih =>
    obtain ⟨t, r, here⟩ := exists_drop_eq_cons within
    have next := drop_succ_of_drop here
    rw [Level.operations]
    refine .here (.current here ?_)
    rw [here, extend]
    cases isOperator : l.operator? t.kind with
    | none =>
      rw [← here]
      exact .pure left
    | some op =>
      obtain ⟨kind, -⟩ := Level.operator?_eq_some_iff.mp isOperator
      have visible : t.kind ≠ .eof := by simp [kind]
      have operand := operands (i + 1) (lexed.ended.lt_length here visible)
      rw [next] at operand
      refine .advance lexed.ended here visible (operand.bind ?_ ?_)
      · intro fault failed
        simp only [failed]
      · intro right j inside read
        have later : i + 1 < j := ends.lt (next.symm ▸ read)
        simp only [read]
        refine .here (.note (Nat.lt_of_succ_lt later) (ih _ inside ?_))
        simp only [List.length_drop] at enough ⊢
        omega

/-- A level with operators, from the tighter level of its operands. -/
theorem level_reads (outer : Level) {inner : Level} (lexed : IsLexed tokens)
    (below : outer.operand? = some inner) (governs : Governs inner reader)
    (unfolds : (Production.level outer).body =
      (Production.level inner).read >>= outer.operations inner)
    (operands : Reads tokens (Production.level inner).read reader) :
    Reads tokens (Production.level outer).read (level outer.operator? reader) := by
  refine .read lexed (governs.level outer below) fun i within => ?_
  rw [unfolds, level]
  refine (operands i within).bind ?_ ?_
  · intro fault failed
    simp only [failed]
  · intro left j inside read
    simp only [read]
    exact operations_runs lexed governs.ends operands _ left inside le_rfl

/-- The cursor keeps the arguments that it has read, the reader puts them before those that it reads
later. -/
theorem arguments_runs (lexed : IsLexed tokens) (ends : Ends .disjunction reader)
    (groups : Reads tokens (Production.level .disjunction).read reader) (name : Token) (fuel : Nat)
    (args : List Tree) {i : Nat} (within : i < tokens.length)
    (enough : (tokens.drop i).length ≤ fuel) :
    Runs tokens (name.arguments args) i
      ((arguments name reader fuel (tokens.drop i)).map fun read => (args ++ read.1, read.2)) := by
  induction fuel generalizing args i with
  | zero =>
    rw [List.length_drop] at enough
    omega
  | succ fuel ih =>
    obtain ⟨t, r, here⟩ := exists_drop_eq_cons within
    rw [Token.arguments]
    refine .here (.current here ?_)
    by_cases last : t.kind = .eof
    · rw [if_pos last, here]
      simp only [arguments, List.head?_cons, Option.map_some, last]
      exact .throw
    · have argument := groups i within
      rw [here] at argument
      rw [if_neg last, here]
      simp only [arguments, List.head?_cons, Option.map_some]
      refine argument.bind ?_ ?_
      · intro fault failed
        simp only [failed]
        rfl
      · intro arg j inside read
        obtain ⟨⟨kind, position⟩, r', there⟩ := exists_drop_eq_cons inside
        have later : i < j := ends.lt (here.symm ▸ read)
        have next := drop_succ_of_drop there
        simp only [read]
        rw [there]
        refine .current there ?_
        cases kind with
        | comma =>
          refine .advance lexed.ended there Kind.noConfusion
            (.here (.note (Nat.lt_succ_of_lt later) ?_))
          have fewer : (tokens.drop (j + 1)).length ≤ fuel := by
            simp only [List.length_drop] at enough ⊢
            omega
          have more := ih (args ++ [arg]) (lexed.ended.lt_length there Kind.noConfusion) fewer
          rw [next] at more
          cases others : arguments name reader fuel r' with
          | error fault =>
            rw [others] at more
            simp only [others]
            exact more
          | ok read =>
            rw [others] at more
            simp only [others]
            simpa only [Except.map, List.append_assoc, List.singleton_append] using more
        | rparen =>
          refine .advance lexed.ended there Kind.noConfusion
            (.here (.note (Nat.lt_succ_of_lt later) ?_))
          rw [← next]
          exact .pure _
        | eof => exact .throw
        | _ => exact .refuse there

theorem primary_call_shorten (ends : Ends .disjunction reader) {name : String} {p q : Nat}
    {t : Tree} {r rest : List Token}
    (read : primary reader (⟨.ident name, p⟩ :: ⟨.lparen, q⟩ :: r) = .ok (t, rest)) :
    rest.length < r.length := by
  by_cases closed : nextKind r = .rparen
  · obtain ⟨s, r', rfl⟩ := eq_cons_of_nextKind closed Kind.noConfusion
    cases read
    exact Nat.lt_succ_self _
  · rw [primary_call reader name closed] at read
    split at read
    · cases read
    · rename_i args _ others
      cases read
      exact arguments_shorten ends others

/-- The parentheses of a call go along with the primary that the name before them begins. -/
theorem call_runs (lexed : IsLexed tokens) (governs : Governs .disjunction reader)
    (groups : Reads tokens (Production.level .disjunction).read reader) {name : String}
    {i p q : Nat} {r : List Token} (here : tokens.drop i = ⟨.ident name, p⟩ :: ⟨.lparen, q⟩ :: r) :
    Runs tokens (Production.call ⟨.ident name, p⟩).read (i + 1)
      (primary reader (tokens.drop i)) := by
  have opened := drop_succ_of_drop here
  have inner := drop_succ_of_drop opened
  have within := lexed.ended.lt_length opened Kind.noConfusion
  refine .read ?_ fun t j inside read => ?_
  · rw [Production.body]
    refine .advance lexed.ended opened Kind.noConfusion ?_
    obtain ⟨⟨kind, s⟩, r', there⟩ := exists_drop_eq_cons within
    refine .current there ?_
    by_cases closed : kind = .rparen
    · subst closed
      have whole : primary reader (tokens.drop i) =
          .ok (.call name [], tokens.drop (i + 1 + 1 + 1)) := by
        rw [here, ← inner, there, drop_succ_of_drop there]
        rfl
      rw [if_pos rfl, whole]
      exact .advance lexed.ended there Kind.noConfusion (.pure _)
    · have unclosed : nextKind r ≠ .rparen := by
        rw [← inner, there]
        exact closed
      have more := arguments_runs lexed governs.ends groups ⟨.ident name, p⟩ r.length []
        within (by rw [inner])
      have same (x : Except SyntaxFault (List Tree × List Token)) :
          (x.map fun read => ([] ++ read.1, read.2)) = x := by
        cases x <;> rfl
      rw [same, inner] at more
      rw [if_neg closed, here, primary_call reader name unclosed]
      refine more.bind ?_ ?_
      · intro fault failed
        simp only [failed]
      · intro args j inside read
        simp only [read]
        exact .pure _
  · refine governs.primary.returns lexed.readable rfl rfl read inside ?_
    rw [here] at read
    have shorter := primary_call_shorten governs.ends read
    rw [← inner, List.length_drop, List.length_drop] at shorter
    omega

theorem primary_reads (lexed : IsLexed tokens) (governs : Governs .disjunction reader)
    (groups : Reads tokens (Production.level .disjunction).read reader) :
    Reads tokens (Production.level .primary).read (primary reader) := by
  refine .read lexed governs.primary fun i within => ?_
  obtain ⟨⟨kind, position⟩, r, here⟩ := exists_drop_eq_cons within
  have next := drop_succ_of_drop here
  rw [Production.body]
  refine .current here ?_
  cases kind with
  | text | number | bool | null =>
    rw [here, ← next]
    exact .advance lexed.ended here Kind.noConfusion (.pure _)
  | ident name =>
    have inside := lexed.ended.lt_length here Kind.noConfusion
    refine .advance lexed.ended here Kind.noConfusion ?_
    obtain ⟨⟨kind, q⟩, r', there⟩ := exists_drop_eq_cons inside
    refine .current there ?_
    by_cases opens : kind = .lparen
    · subst opens
      rw [if_pos rfl]
      exact call_runs lexed governs groups (by rw [here, ← next, there])
    · have bare : nextKind r ≠ .lparen := by
        rw [← next, there]
        exact opens
      rw [if_neg opens, here, primary_path reader name position bare, ← next]
      exact .pure _
  | lparen =>
    have group := groups (i + 1) (lexed.ended.lt_length here Kind.noConfusion)
    rw [next] at group
    rw [here]
    simp only [primary]
    refine .advance lexed.ended here Kind.noConfusion (group.bind ?_ ?_)
    · intro fault failed
      simp only [failed]
    · intro t j inside read
      obtain ⟨⟨kind, q⟩, r', there⟩ := exists_drop_eq_cons inside
      simp only [read]
      rw [there]
      refine .current there ?_
      cases kind with
      | rparen =>
        rw [if_pos rfl, ← drop_succ_of_drop there]
        exact .advance lexed.ended there Kind.noConfusion (.pure _)
      | _ =>
        rw [if_neg Kind.noConfusion]
        exact .refuse there
  | eof | rparen | comma | not | operator =>
    rw [here]
    exact .refuse here

theorem negation_reads (lexed : IsLexed tokens) (n : Nat)
    (groups : Reads tokens (Production.level .disjunction).read (disjunction n))
    (negations : Reads tokens (Production.level .negation).read (negation n)) :
    Reads tokens (Production.level .negation).read (negation (n + 1)) := by
  refine .read lexed (governs_negation (n + 1)) fun i within => ?_
  obtain ⟨⟨kind, position⟩, r, here⟩ := exists_drop_eq_cons within
  rw [Production.body]
  refine .current here ?_
  by_cases first : kind = .not
  · subst first
    have operand := negations (i + 1) (lexed.ended.lt_length here Kind.noConfusion)
    rw [drop_succ_of_drop here] at operand
    rw [if_pos rfl, here]
    simp only [negation]
    refine .advance lexed.ended here Kind.noConfusion (operand.bind ?_ ?_)
    · intro fault failed
      simp only [failed]
    · intro t j inside read
      simp only [read]
      exact .pure _
  · have plain : nextKind (tokens.drop i) ≠ .not := by
      rw [here]
      exact first
    rw [if_neg first, negation_of_primary plain]
    exact primary_reads lexed (governs_disjunction n) groups i within

/-- The functions of the cursor have no budget, so they go along with readers of every budget. -/
theorem reader_reads (lexed : IsLexed tokens) (n : Nat) :
    Reads tokens (Production.level .disjunction).read (disjunction n) ∧
      Reads tokens (Production.level .negation).read (negation n) := by
  induction n with
  | zero =>
    -- Without a budget all tokens nest too deeply, and nothing is asked of the cursor.
    constructor
    all_goals
      intro _ _ shallow
      exact absurd ⟨none, rfl⟩ shallow
  | succ n ih =>
    obtain ⟨groups, negations⟩ := ih
    have relation := (governs_negation n).level .relation rfl
    have equality := relation.level .equality rfl
    have conjunction := equality.level .conjunction rfl
    have relations := level_reads .relation lexed rfl (governs_negation n)
      (by rw [Production.body]) negations
    have equalities := level_reads .equality lexed rfl relation
      (by rw [Production.body]) relations
    have conjunctions := level_reads .conjunction lexed rfl equality
      (by rw [Production.body]) equalities
    have disjunctions := level_reads .disjunction lexed rfl conjunction
      (by rw [Production.body]) conjunctions
    exact ⟨disjunctions, negation_reads lexed n groups negations⟩

end Functions

section Whole

variable {n : Nat}

/-- A condition up to the end of the tokens, within a budget for nesting. -/
def upToEnd (n : Nat) : Reader Tree
  | tokens =>
    (disjunction n tokens).bind fun read =>
      if nextKind read.2 = .eof then .ok read
      else .error ⟨.unexpectedToken (nextKind read.2).content, place read.2⟩

theorem map_upToEnd (tokens : List Token) :
    (upToEnd depthLimit tokens).map Prod.fst = parseTokens tokens := by
  simp only [upToEnd, parseTokens]
  cases disjunction depthLimit tokens with
  | error fault => rfl
  | ok read =>
    obtain ⟨t, - | ⟨⟨kind, position⟩, rest⟩⟩ := read
    · rfl
    · cases kind <;> rfl

theorem tooDeep_upToEnd_iff : TooDeep (upToEnd n tokens) ↔ TooDeep (disjunction n tokens) := by
  simp only [upToEnd]
  cases disjunction n tokens with
  | error fault => rfl
  | ok read =>
    simp only [Except.bind]
    split_ifs <;> simp

theorem upToEnd_eq_ok {t : Tree} {rest : List Token} (read : upToEnd n tokens = .ok (t, rest)) :
    disjunction n tokens = .ok (t, rest) ∧ nextKind rest = .eof := by
  simp only [upToEnd] at read
  cases first : disjunction n tokens with
  | error fault =>
    rw [first] at read
    cases read
  | ok result =>
    simp only [first, Except.bind] at read
    split_ifs at read with last
    cases read
    exact ⟨rfl, last⟩

theorem whole_reads (lexed : IsLexed tokens) (n : Nat) :
    Reads tokens Production.whole.read (upToEnd n) := by
  intro i within
  have governs := governs_disjunction n
  refine .read ?_ fun t j inside read => ?_
  · rw [Production.body]
    refine ((reader_reads lexed n).1 i within).bind ?_ ?_
    · intro fault failed
      rw [upToEnd, failed]
      rfl
    · intro t j inside read
      obtain ⟨k, r, there⟩ := exists_drop_eq_cons inside
      have next : nextKind (tokens.drop j) = k.kind := by rw [there, nextKind_cons]
      simp only [upToEnd, read, Except.bind, next]
      refine .current there ?_
      by_cases last : k.kind = .eof
      · rw [if_pos last, if_pos last]
        exact .pure t
      · rw [if_neg last, if_neg last, there]
        exact .current there (.refuse there)
  · have first := (upToEnd_eq_ok read).1
    exact governs.returns lexed.readable rfl rfl first inside (governs.ends.lt first)

/-- Behind all other tokens alone stands the end. -/
theorem eq_length_of_nextKind {ts : List Token} {i stop : Nat}
    (whole : tokens = ts ++ [⟨.eof, stop⟩]) (free : Kind.eof ∉ ts.map Token.kind)
    (within : i ≤ ts.length) (last : nextKind (tokens.drop i) = .eof) : i = ts.length := by
  by_contra before
  obtain ⟨t, r, here⟩ := exists_drop_eq_cons (lt_of_le_of_ne within before)
  rw [whole, List.drop_append_of_le_length within, here, List.cons_append, nextKind_cons] at last
  have member : t ∈ ts := List.mem_of_mem_drop (here ▸ List.mem_cons_self)
  exact free (last ▸ List.mem_map_of_mem member)

end Whole

end Parsing

open Parsing

/-- On the tokens of a text, which end in their only end, the cursor comes to an outcome: that of
the parser, unless the parser refuses the tokens for their depth. It never stands behind the end,
it took the tokens before it one by one, and all that it did is disciplined; where it read a tree
it stands at the end, and the function for the whole returned the tree. -/
theorem parseTokens_disciplined {text : String} {tokens : List Token}
    (lexed : tokenize text = .ok tokens) :
    ∃ ts stop, tokens = ts ++ [⟨.eof, stop⟩] ∧ Kind.eof ∉ ts.map Token.kind ∧
      ∃ result c, parse? tokens = some (result, c) ∧
        (¬TooDeep (parseTokens tokens) → result = parseTokens tokens) ∧
        c.position ≤ ts.length ∧ (∀ place < c.position, .takes place ∈ c.events) ∧
        (∀ t, result = .ok t →
          c.position = ts.length ∧ .returns .whole t 0 ts.length ∈ c.events) ∧
        ∀ e ∈ c.events, e.IsDisciplined tokens := by
  obtain ⟨lexes, readable, ts, stop, whole, kinds⟩ := tokens_of_tokenize lexed
  have free : Kind.eof ∉ ts.map Token.kind := kinds ▸ lexes.eof_notMem
  have count : tokens.length = ts.length + 1 := by simp [whole]
  have start : Cursor.InOrder tokens ⟨0, []⟩ := ⟨by simp [count], by simp, by simp⟩
  -- A budget for the depth of these tokens that is no less than that of the parser.
  obtain ⟨n, deep, limit⟩ : ∃ n, nesting (tokens.map Token.kind) + 2 ≤ n ∧ depthLimit ≤ n :=
    ⟨_, le_max_left _ _, le_max_right _ _⟩
  have shallow : ¬TooDeep (upToEnd n tokens) :=
    tooDeep_upToEnd_iff.not.mpr (not_tooDeep_of_nesting deep)
  obtain ⟨result, c, ran, inOrder, same⟩ :=
    whole_reads ⟨readable, ts, stop, whole⟩ n 0 start.within shallow [] start
  have within : c.position ≤ ts.length := by
    have inside := inOrder.within
    rw [count] at inside
    exact Nat.le_of_lt_succ inside
  rw [List.drop_zero] at same
  refine ⟨ts, stop, whole, free, result, c, ran, ?_, within, inOrder.taken, ?_,
    inOrder.disciplined⟩
  · intro accepted
    have more : disjunction n tokens = disjunction depthLimit tokens :=
      disjunction_extends limit tokens (tooDeep_parseTokens_iff.not.mp accepted)
    have budget : upToEnd n tokens = upToEnd depthLimit tokens := by
      simp only [upToEnd, more]
    rw [← map_upToEnd, ← budget, same]
    cases result <;> rfl
  · rintro t rfl
    have last := eq_length_of_nextKind whole free within (upToEnd_eq_ok same).2
    exact ⟨last, last ▸ returns_mem_of_run ran⟩

theorem parseTokens_disciplined_sample :
    tokenize "!a && f(b, 'x')" = .ok tokensOfSample ∧
      ∃ c, parse? tokensOfSample = some (.ok treeOfSample, c) ∧ c.position = 9 ∧
        .returns .whole treeOfSample 0 9 ∈ c.events ∧
        ∀ e ∈ c.events, e.IsDisciplined tokensOfSample := by
  have lexed : tokenize "!a && f(b, 'x')" = .ok tokensOfSample := by decide +kernel
  have read : parseTokens tokensOfSample = .ok treeOfSample := rfl
  obtain ⟨ts, stop, whole, -, result, c, ran, same, -, -, accepted, disciplined⟩ :=
    parseTokens_disciplined lexed
  obtain rfl : result = .ok treeOfSample := (same (by simp [read])).trans read
  have count : ts.length = 9 := by
    have lengths : 10 = (ts ++ [⟨.eof, stop⟩] : List Token).length := congrArg List.length whole
    simpa using lengths.symm
  rw [count] at accepted
  obtain ⟨last, returned⟩ := accepted treeOfSample rfl
  exact ⟨lexed, c, ran, last, returned, disciplined⟩

/-- A call that is not closed is refused where the cursor looks at the end. -/
example : (parse? [⟨.ident "f", 0⟩, ⟨.lparen, 1⟩, ⟨.eof, 2⟩]).map (fun r => (r.1, r.2.events)) =
    some (.error ⟨.unclosedCall "f", some 0⟩, [.looks 2, .looks 2, .takes 1, .looks 1, .looks 1,
      .takes 0, .looks 0, .looks 0, .looks 0]) := by
  cbv

end Drydock.Expr
