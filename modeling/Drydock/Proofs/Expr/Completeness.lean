import Drydock.Proofs.Expr.Soundness

set_option autoImplicit false
set_option relaxedAutoImplicit false

/-!
What is written is read. Main statements: tokens that write a tree are read as that tree within any
budget that exceeds their number by two, and so no tokens write two trees.
-/

namespace Drydock.Expr

/-- The reader of a level, within a budget for what is in parentheses. -/
def readerAt (n : Nat) : Level → Reader Tree
  | .disjunction => disjunction (n + 2)
  | .conjunction =>
    level andOperator? <| level equalityOperator? <| level relationOperator? (negation (n + 1))
  | .equality => level equalityOperator? <| level relationOperator? (negation (n + 1))
  | .relation => level relationOperator? (negation (n + 1))
  | .negation => negation (n + 1)
  | .primary => primary (disjunction n)

/-- How tightly a level binds. -/
def Level.rank : Level → Nat
  | .disjunction => 0
  | .conjunction => 1
  | .equality => 2
  | .relation => 3
  | .negation => 4
  | .primary => 5

/-- A token is no operator of a level or of a tighter one. -/
def Level.StopsAt (l : Level) (next : Kind) : Prop :=
  ∀ tighter : Level, l.rank ≤ tighter.rank → tighter.operator? next = none

variable {outer inner : Level} {n : Nat} {t : Tree} {tokens rest : List Token}

theorem Level.StopsAt.below {next : Kind} (below : outer.operand? = some inner)
    (stops : outer.StopsAt next) : inner.StopsAt next := by
  intro tighter above
  refine stops tighter (le_trans ?_ above)
  cases outer <;> cases below <;> decide

theorem Level.stopsAt_of_joins {op : Operator} (below : outer.operand? = some inner)
    (joins : op ∈ outer.operators) : inner.StopsAt (.operator op) := by
  intro tighter above
  by_contra isOperator
  obtain ⟨op', same⟩ := Option.ne_none_iff_exists'.mp isOperator
  obtain ⟨kind, joins'⟩ := Level.operator?_eq_some_iff.mp same
  cases kind
  cases outer <;> cases below <;> cases tighter <;> cases op <;>
    simp_all [Level.operators, Level.rank]

theorem Level.stopsAt_of_not_operator {next : Kind} (l : Level)
    (other : ∀ op, next ≠ .operator op) : l.StopsAt next := by
  intro tighter _
  by_contra isOperator
  obtain ⟨op, same⟩ := Option.ne_none_iff_exists'.mp isOperator
  exact other op (Level.operator?_eq_some_iff.mp same).1

theorem extend_of_stop (reader : Reader Tree) {operator? : Kind → Option Operator}
    (stop : operator? (nextKind rest) = none) (fuel : Nat) :
    extend operator? reader fuel t rest = .ok (t, rest) := by
  cases fuel with
  | zero => rfl
  | succ fuel =>
    cases rest with
    | nil => rfl
    | cons k r =>
      rw [nextKind_cons] at stop
      simp only [extend, stop]

theorem readerAt_eq_level (below : outer.operand? = some inner) (binary : outer ≠ .negation) :
    readerAt n outer = level outer.operator? (readerAt n inner) := by
  cases outer <;> cases below <;> first | rfl | exact absurd rfl binary

/-- A level reads a tree off the front of tokens and goes on with its operators; a primary is read
at once. -/
def Level.Reads (l : Level) (n : Nat) (tokens : List Token) (t : Tree) (rest : List Token) : Prop :=
  match l.operand? with
  | some inner => inner.StopsAt (nextKind rest) → ∃ fuel, rest.length ≤ fuel ∧
      readerAt n l tokens = extend l.operator? (readerAt n inner) fuel t rest
  | none => readerAt n l tokens = .ok (t, rest)

theorem Level.reads_iff (below : outer.operand? = some inner) :
    outer.Reads n tokens t rest ↔ (inner.StopsAt (nextKind rest) → ∃ fuel, rest.length ≤ fuel ∧
      readerAt n outer tokens = extend outer.operator? (readerAt n inner) fuel t rest) := by
  simp only [Level.Reads, below]

theorem Level.Reads.eq_ok {l : Level} (reads : l.Reads n tokens t rest)
    (stops : l.StopsAt (nextKind rest)) : readerAt n l tokens = .ok (t, rest) := by
  cases below : l.operand? with
  | none => simpa only [Level.Reads, below] using reads
  | some inner =>
    obtain ⟨fuel, -, same⟩ := (Level.reads_iff below).mp reads (stops.below below)
    rw [same]
    exact extend_of_stop _ (stops l le_rfl) fuel

theorem negation_not {position : Nat} (read : negation n tokens = .ok (t, rest)) :
    negation (n + 1) (⟨.not, position⟩ :: tokens) = .ok (.not t, rest) := by
  simp only [negation, read]

theorem negation_of_primary (first : nextKind tokens ≠ .not) :
    negation (n + 1) tokens = primary (disjunction n) tokens := by
  cases tokens with
  | nil => rfl
  | cons k r =>
    obtain ⟨kind, position⟩ := k
    rw [nextKind_cons] at first
    cases kind <;> first | rfl | exact absurd rfl first

theorem Derives.head?_ne_not {ks : List Kind} {next : Kind}
    (derived : Derives (.tree .primary t) ks next) : ks.head? ≠ some .not := by
  cases derived with
  | operand below => cases below
  | operation below => cases below
  | text | number | bool | null | path | emptyCall | call | group => simp

theorem reads_operand {ts : List Token} {next : Kind} (below : outer.operand? = some inner)
    (derived : Derives (.tree inner t) (ts.map Token.kind) next)
    (reads : inner.Reads n (ts ++ rest) t rest) : outer.Reads n (ts ++ rest) t rest := by
  refine (Level.reads_iff below).mpr fun stops => ⟨rest.length, le_rfl, ?_⟩
  have whole := reads.eq_ok stops
  by_cases unary : outer = .negation
  · subst unary
    cases below
    obtain ⟨k, r, same, -⟩ := derived.isRow.first
    obtain ⟨k, ts, rfl, rfl, -⟩ := List.map_eq_cons_iff.mp same
    have first : nextKind (k :: ts ++ rest) ≠ .not := by simpa using derived.head?_ne_not
    calc negation (n + 1) (k :: ts ++ rest)
        = primary (disjunction n) (k :: ts ++ rest) := negation_of_primary first
      _ = .ok (t, rest) := whole
      _ = extend _ _ rest.length t rest := (extend_of_stop _ rfl _).symm
  · rw [readerAt_eq_level below unary, level, whole]

theorem reads_operation {op : Operator} {left right : Tree} {k : Token} {rs : List Token}
    (below : outer.operand? = some inner) (joins : op ∈ outer.operators)
    (kind : k.kind = .operator op)
    (first : outer.Reads n tokens left (k :: (rs ++ rest)))
    (second : inner.Reads n (rs ++ rest) right rest) :
    outer.Reads n tokens (.binary op left right) rest := by
  refine (Level.reads_iff below).mpr fun stops => ?_
  have between : inner.StopsAt (nextKind (k :: (rs ++ rest))) := by
    rw [nextKind_cons, kind]
    exact Level.stopsAt_of_joins below joins
  obtain ⟨fuel, enough, same⟩ := (Level.reads_iff below).mp first between
  cases fuel with
  | zero => simp at enough
  | succ fuel =>
    refine ⟨fuel, ?_, ?_⟩
    · simp only [List.length_cons, List.length_append] at enough
      omega
    · have isOperator : outer.operator? k.kind = some op :=
        Level.operator?_eq_some_iff.mpr ⟨kind, joins⟩
      simp only [same, extend, isOperator, second.eq_ok stops]

theorem arguments_last {reader : Reader Tree} {name : Token} {fuel position : Nat}
    (opens : (nextKind tokens).opens = true)
    (read : reader tokens = .ok (t, ⟨.rparen, position⟩ :: rest)) :
    arguments name reader (fuel + 1) tokens = .ok ([t], rest) := by
  cases tokens with
  | nil => cases opens
  | cons k r =>
    obtain ⟨kind, place⟩ := k
    cases kind <;> first
      | exact absurd opens Bool.false_ne_true
      | simp only [arguments, List.head?_cons, Option.map_some, read]

theorem arguments_more {reader : Reader Tree} {name : Token} {fuel position : Nat}
    {others : List Token} {ts : List Tree} (opens : (nextKind tokens).opens = true)
    (read : reader tokens = .ok (t, ⟨.comma, position⟩ :: others))
    (more : arguments name reader fuel others = .ok (ts, rest)) :
    arguments name reader (fuel + 1) tokens = .ok (t :: ts, rest) := by
  cases tokens with
  | nil => cases opens
  | cons k r =>
    obtain ⟨kind, place⟩ := k
    cases kind <;> first
      | exact absurd opens Bool.false_ne_true
      | simp only [arguments, List.head?_cons, Option.map_some, read, more]

theorem primary_call (reader : Reader Tree) (name : String) {p q : Nat} {r : List Token}
    (closed : nextKind r ≠ .rparen) :
    primary reader (⟨.ident name, p⟩ :: ⟨.lparen, q⟩ :: r) =
      match arguments ⟨.ident name, p⟩ reader r.length r with
      | .error fault => .error fault
      | .ok (args, rest) => .ok (.call name args, rest) := by
  cases r with
  | nil => rfl
  | cons k r =>
    obtain ⟨kind, place⟩ := k
    rw [nextKind_cons] at closed
    cases kind <;> first
      | exact absurd rfl closed
      | rfl

theorem primary_path (reader : Reader Tree) (name : String) (p : Nat)
    (bare : nextKind rest ≠ .lparen) :
    primary reader (⟨.ident name, p⟩ :: rest) = .ok (.path name, rest) := by
  cases rest with
  | nil => rfl
  | cons k r =>
    obtain ⟨kind, place⟩ := k
    rw [nextKind_cons] at bare
    cases kind <;> first
      | exact absurd rfl bare
      | rfl

/-- Tokens that write a phrase are read as it, whatever follows them. -/
def IsRead (ks : List Kind) (next : Kind) : Phrase → Prop
  | .tree l t => ∀ n, ks.length ≤ n → ∀ ts rest, ts.map Token.kind = ks → nextKind rest = next →
      l.Reads n (ts ++ rest) t rest
  | .arguments args => next = .rparen → ∀ n fuel, ks.length ≤ n → ks.length ≤ fuel →
      ∀ name position ts rest, ts.map Token.kind = ks →
        arguments name (disjunction (n + 2)) fuel (ts ++ ⟨.rparen, position⟩ :: rest) =
          .ok (args, rest)

theorem nextKind_append {ts : List Token} {ks : List Kind} (kinds : ts.map Token.kind = ks)
    (row : IsRow ks) (rest : List Token) : (nextKind (ts ++ rest)).opens = true := by
  obtain ⟨k, r, rfl, opens⟩ := row.first
  obtain ⟨k, ts, rfl, rfl, -⟩ := List.map_eq_cons_iff.mp kinds
  exact opens

theorem IsRead.disjunction_eq {ks : List Kind} {next : Kind}
    (read : IsRead ks next (.tree .disjunction t)) (plain : ∀ op, next ≠ .operator op)
    (enough : ks.length ≤ n) {ts : List Token} (kinds : ts.map Token.kind = ks)
    (follows : nextKind rest = next) : disjunction (n + 2) (ts ++ rest) = .ok (t, rest) := by
  refine (read n enough ts rest kinds follows).eq_ok ?_
  rw [follows]
  exact Level.stopsAt_of_not_operator _ plain

theorem Level.stopsAt_negation (next : Kind) : Level.negation.StopsAt next := by
  intro tighter above
  cases tighter <;> first
    | exact absurd above (by decide)
    | rfl

theorem kinds_eq_cons {ts : List Token} {k : Kind} {ks : List Kind}
    (kinds : ts.map Token.kind = k :: ks) :
    ∃ position r, ts = ⟨k, position⟩ :: r ∧ r.map Token.kind = ks := by
  obtain ⟨⟨_, position⟩, r, rfl, rfl, others⟩ := List.map_eq_cons_iff.mp kinds
  exact ⟨position, r, rfl, others⟩

theorem kinds_eq_concat {ts : List Token} {k : Kind} {ks : List Kind}
    (kinds : ts.map Token.kind = ks ++ [k]) :
    ∃ r position, ts = r ++ [⟨k, position⟩] ∧ r.map Token.kind = ks := by
  obtain ⟨r, last, rfl, others, kinds⟩ := List.map_eq_append_iff.mp kinds
  obtain ⟨position, none, rfl, empty⟩ := kinds_eq_cons kinds
  rw [List.map_eq_nil_iff.mp empty]
  exact ⟨r, position, rfl, others⟩

namespace IsRead

variable {ks ls rs : List Kind} {next : Kind} {ts : List Tree}

theorem operand (below : outer.operand? = some inner) (derived : Derives (.tree inner t) ks next)
    (whole : IsRead ks next (.tree inner t)) : IsRead ks next (.tree outer t) := by
  intro n enough tokens rest kinds follows
  exact reads_operand below (kinds ▸ derived) (whole n enough tokens rest kinds follows)

theorem operation {op : Operator} {left right : Tree} (below : outer.operand? = some inner)
    (joins : op ∈ outer.operators) (first : IsRead ls (.operator op) (.tree outer left))
    (second : IsRead rs next (.tree inner right)) :
    IsRead (ls ++ .operator op :: rs) next (.tree outer (.binary op left right)) := by
  intro n enough tokens rest kinds follows
  obtain ⟨before, tokens, rfl, onLeft, kinds⟩ := List.map_eq_append_iff.mp kinds
  obtain ⟨position, after, rfl, onRight⟩ := kinds_eq_cons kinds
  simp only [List.length_append, List.length_cons] at enough
  rw [List.append_assoc, List.cons_append]
  exact reads_operation below joins rfl
    (first n (by omega) before _ onLeft rfl) (second n (by omega) after rest onRight follows)

theorem negation (inner : IsRead ks next (.tree .negation t)) :
    IsRead (.not :: ks) next (.tree .negation (.not t)) := by
  intro n enough tokens rest kinds follows
  obtain ⟨position, tokens, rfl, inside⟩ := kinds_eq_cons kinds
  cases n with
  | zero => cases enough
  | succ n =>
    have budget : ks.length ≤ n := Nat.le_of_succ_le_succ enough
    have whole : Expr.negation (n + 1) (tokens ++ rest) = .ok (t, rest) :=
      (inner n budget tokens rest inside follows).eq_ok (Level.stopsAt_negation _)
    refine (Level.reads_iff rfl).mpr fun _ => ⟨rest.length, le_rfl, ?_⟩
    calc Expr.negation (n + 2) (⟨.not, position⟩ :: (tokens ++ rest))
        = .ok (.not t, rest) := negation_not whole
      _ = extend _ _ rest.length (.not t) rest := (extend_of_stop _ rfl _).symm

theorem group (inner : IsRead ks .rparen (.tree .disjunction t)) :
    IsRead (.lparen :: (ks ++ [.rparen])) next (.tree .primary t) := by
  intro n enough tokens rest kinds _
  obtain ⟨p, tokens, rfl, others⟩ := kinds_eq_cons kinds
  obtain ⟨tokens, q, rfl, inside⟩ := kinds_eq_concat others
  simp only [List.length_cons, List.length_append, List.length_nil] at enough
  obtain ⟨n, rfl⟩ : ∃ m, n = m + 2 := ⟨n - 2, by omega⟩
  have whole : disjunction (n + 2) (tokens ++ ⟨.rparen, q⟩ :: rest) =
      .ok (t, ⟨.rparen, q⟩ :: rest) :=
    inner.disjunction_eq (fun _ => Kind.noConfusion) (by omega) inside rfl
  simp [Level.Reads, Level.operand?, readerAt, primary, whole]

theorem call (name : String) (row : IsRow ks) (args : IsRead ks .rparen (.arguments ts)) :
    IsRead (.ident name :: .lparen :: (ks ++ [.rparen])) next (.tree .primary (.call name ts)) := by
  intro n enough tokens rest kinds _
  obtain ⟨p, tokens, rfl, others⟩ := kinds_eq_cons kinds
  obtain ⟨q, tokens, rfl, last⟩ := kinds_eq_cons others
  obtain ⟨tokens, r, rfl, inside⟩ := kinds_eq_concat last
  simp only [List.length_cons, List.length_append, List.length_nil] at enough
  obtain ⟨n, rfl⟩ : ∃ m, n = m + 2 := ⟨n - 2, by omega⟩
  have size : ks.length ≤ (tokens ++ ⟨.rparen, r⟩ :: rest).length := by simp [← inside]
  have read := args rfl n _ (by omega) size ⟨.ident name, p⟩ r tokens rest inside
  have closed : nextKind (tokens ++ ⟨.rparen, r⟩ :: rest) ≠ .rparen := by
    intro closed
    have opens := nextKind_append inside row (⟨.rparen, r⟩ :: rest)
    rw [closed] at opens
    cases opens
  have whole := primary_call (disjunction (n + 2)) name (p := p) (q := q) closed
  simp only [read] at whole
  simpa [Level.Reads, Level.operand?, readerAt] using whole

theorem lastArgument (row : IsRow ks) (arg : IsRead ks next (.tree .disjunction t)) :
    IsRead ks next (.arguments [t]) := by
  intro closing n fuel enough more name position tokens rest kinds
  subst closing
  cases fuel with
  | zero => exact absurd (List.length_eq_zero_iff.mp (Nat.le_zero.mp more)) row.ne_nil
  | succ fuel =>
    exact arguments_last (nextKind_append kinds row _)
      (arg.disjunction_eq (fun _ => Kind.noConfusion) enough kinds rfl)

theorem argument (row : IsRow ks) (arg : IsRead ks .comma (.tree .disjunction t))
    (others : IsRead rs next (.arguments ts)) :
    IsRead (ks ++ .comma :: rs) next (.arguments (t :: ts)) := by
  intro closing n fuel enough more name position tokens rest kinds
  obtain ⟨before, tokens, rfl, onLeft, kinds⟩ := List.map_eq_append_iff.mp kinds
  obtain ⟨q, after, rfl, onRight⟩ := kinds_eq_cons kinds
  simp only [List.length_append, List.length_cons] at enough more
  obtain ⟨fuel, rfl⟩ : ∃ m, fuel = m + 1 := ⟨fuel - 1, by omega⟩
  rw [List.append_assoc, List.cons_append]
  exact arguments_more (nextKind_append onLeft row _)
    (arg.disjunction_eq (fun _ => Kind.noConfusion) (by omega) onLeft rfl)
    (others closing n fuel (by omega) (by omega) name position after rest onRight)

end IsRead

theorem isRead_of_derives {p : Phrase} {ks : List Kind} {next : Kind}
    (derived : Derives p ks next) : IsRead ks next p := by
  induction derived with
  | operand below whole ih => exact ih.operand below whole
  | operation below joins _ _ first second => exact first.operation below joins second
  | negation _ ih => exact ih.negation
  | text | bool | null =>
    intro n _ ts rest kinds _
    obtain ⟨position, ts, rfl, none⟩ := kinds_eq_cons kinds
    rw [List.map_eq_nil_iff.mp none]
    rfl
  | number _ value =>
    intro n _ ts rest kinds _
    obtain ⟨position, ts, rfl, none⟩ := kinds_eq_cons kinds
    rw [List.map_eq_nil_iff.mp none]
    simp [Level.Reads, Level.operand?, readerAt, primary, value]
  | path name bare =>
    intro n _ ts rest kinds follows
    obtain ⟨position, ts, rfl, none⟩ := kinds_eq_cons kinds
    rw [List.map_eq_nil_iff.mp none]
    exact primary_path _ name position (follows ▸ bare)
  | emptyCall name =>
    intro n _ ts rest kinds _
    obtain ⟨p, ts, rfl, others⟩ := kinds_eq_cons kinds
    obtain ⟨q, ts, rfl, last⟩ := kinds_eq_cons others
    obtain ⟨r, ts, rfl, none⟩ := kinds_eq_cons last
    rw [List.map_eq_nil_iff.mp none]
    rfl
  | call name _ args ih => exact ih.call name args.isRow
  | group _ _ ih => exact ih.group
  | lastArgument arg ih => exact ih.lastArgument arg.isRow
  | argument arg _ first others => exact first.argument arg.isRow others

/-- Tokens at no particular place. -/
def unplaced (ks : List Kind) : List Token :=
  ks.map fun k => ⟨k, 0⟩

theorem kinds_unplaced (ks : List Kind) : (unplaced ks).map Token.kind = ks := by
  simp [unplaced, Function.comp_def]

/-- Tokens up to the end that write a tree are read as it within any budget of at least two more
than their number. -/
theorem disjunction_of_writes {ks : List Kind} (writes : Writes ks t) {ts : List Token}
    (kinds : ts.map Token.kind = ks) (follows : nextKind rest = .eof) (enough : ks.length ≤ n) :
    disjunction (n + 2) (ts ++ rest) = .ok (t, rest) :=
  (isRead_of_derives writes).disjunction_eq (fun _ => Kind.noConfusion) enough kinds follows

/-- Tokens cannot go on with a token and write a tree of a level. -/
def Level.EndsBefore (l : Level) (ks : List Kind) (next : Kind) : Prop :=
  ∀ t more after, ¬Derives (.tree l t) (ks ++ next :: more) after

/-- Tokens that write a tree before a token at which its level stops cannot go on with it. -/
theorem Derives.endsBefore {l : Level} {ks : List Kind} {next : Kind}
    (derived : Derives (.tree l t) ks next) (stops : l.StopsAt next) : l.EndsBefore ks next := by
  intro t' more after longer
  have short : readerAt (ks ++ next :: more).length l (unplaced ks ++ unplaced (next :: more)) =
      .ok (t, unplaced (next :: more)) :=
    (isRead_of_derives derived _ (by simp) _ _ (kinds_unplaced ks) rfl).eq_ok stops
  have long : readerAt (ks ++ next :: more).length l (unplaced (ks ++ next :: more) ++ []) =
      .ok (t', []) :=
    (isRead_of_derives (longer.of_next Kind.noConfusion) _ le_rfl _ _ (kinds_unplaced _) rfl).eq_ok
      (Level.stopsAt_of_not_operator l fun _ => Kind.noConfusion)
  have same : unplaced (ks ++ next :: more) ++ [] = unplaced ks ++ unplaced (next :: more) := by
    simp [unplaced]
  rw [same, short] at long
  cases long

/-- Tokens write at most one tree. -/
theorem Writes.unique {ks : List Kind} {t t' : Tree} (writes : Writes ks t)
    (writes' : Writes ks t') : t = t' := by
  have read : disjunction (ks.length + 2) (unplaced ks ++ []) = .ok (t, []) :=
    disjunction_of_writes writes (kinds_unplaced ks) rfl le_rfl
  have read' : disjunction (ks.length + 2) (unplaced ks ++ []) = .ok (t', []) :=
    disjunction_of_writes writes' (kinds_unplaced ks) rfl le_rfl
  exact congrArg Prod.fst (Except.ok.inj (read.symm.trans read'))

end Drydock.Expr
