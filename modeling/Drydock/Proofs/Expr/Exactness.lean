import Drydock.Proofs.Expr.Lexing
import Drydock.Proofs.Expr.Nesting
import Mathlib

set_option autoImplicit false
set_option relaxedAutoImplicit false

/-!
What the parser accepts. Main statement: the tokens of a text that nest no deeper than a condition
may are read as a tree exactly if they write it, they write no other tree, and where they write none
they are refused.
-/

namespace Drydock.Expr

/-- The kinds of the tokens before the end. -/
def beforeEnd (tokens : List Token) : List Kind :=
  (tokens.map Token.kind).takeWhile (· ≠ .eof)

/-- Ways in which tokens fail to write a condition. -/
inductive Malformed (ks : List Kind) : Prop
  | empty (none : ks = [])
  | trailingComma (inside : [.comma, .rparen] <:+: ks)
  | emptyArgument {k : Kind} (begins : k = .lparen ∨ k = .comma) (inside : [k, .comma] <:+: ks)
  | unbalanced (uneven : ks.count .lparen ≠ ks.count .rparen)
  | adjacent {a b : Kind} (ends : a.closes = true) (begins : b.opens = true)
      (other : b = .lparen → ∀ name, a ≠ .ident name) (inside : [a, b] <:+: ks)
  | trailing {front r : List Kind} {k : Kind} {t : Tree} (whole : ks = front ++ k :: r)
      (writes : Writes front t) (other : ∀ op, k ≠ .operator op) (bare : k ≠ .lparen)

section Refusal

variable {ks : List Kind} {t : Tree}

/-- Tokens that write a tree cannot be followed by anything but an operator or a parenthesis. -/
theorem Writes.not_extended (writes : Writes ks t) {k : Kind} {r : List Kind} {t' : Tree}
    (other : ∀ op, k ≠ .operator op) (bare : k ≠ .lparen) : ¬Writes (ks ++ k :: r) t' :=
  (writes.of_next bare).endsBefore (Level.stopsAt_of_not_operator _ other) t' r .eof

theorem Derives.admits_of_infix {p : Phrase} {next a b : Kind} (derived : Derives p ks next)
    (inside : [a, b] <:+: ks) : a.admits b = true := by
  simpa using derived.isRow.chain.infix inside

theorem Writes.not_malformed (writes : Writes ks t) : ¬Malformed ks := by
  rintro (none | inside | ⟨begins, inside⟩ | uneven | ⟨ends, begins, other, inside⟩ |
    ⟨rfl, front, other, bare⟩)
  · exact writes.isRow.ne_nil none
  · exact absurd (writes.admits_of_infix inside) (by decide)
  · rcases begins with rfl | rfl
    all_goals exact absurd (writes.admits_of_infix inside) (by decide)
  · exact uneven writes.count_parens
  · have admits := writes.admits_of_infix inside
    simp only [Kind.admits] at admits
    split at admits
    · exact other rfl _ rfl
    · cases begins
    · simp [ends, begins] at admits
  · exact front.not_extended other bare writes

end Refusal

section Acceptance

variable {text : String} {tokens : List Token} {t : Tree}

theorem beforeEnd_append {ts rest : List Token} (free : .eof ∉ ts.map Token.kind)
    (ends : nextKind rest = .eof) : beforeEnd (ts ++ rest) = ts.map Token.kind := by
  have whole : (ts.map Token.kind).takeWhile (· ≠ .eof) = ts.map Token.kind :=
    List.takeWhile_eq_self_iff.mpr fun k member => by simpa using ne_of_mem_of_not_mem member free
  have stops : (rest.map Token.kind).takeWhile (· ≠ .eof) = [] := by
    cases rest with
    | nil => rfl
    | cons k r => simp [show k.kind = .eof from ends]
  rw [beforeEnd, List.map_append, List.takeWhile_append, whole, if_pos rfl, stops, List.append_nil]

/-- The tokens of a text are those before the end and the end. -/
theorem tokens_of_tokenize (lexed : tokenize text = .ok tokens) :
    Lexes text.toList (beforeEnd tokens) ∧ Readable tokens ∧
      ∃ ts position, tokens = ts ++ [⟨.eof, position⟩] ∧ ts.map Token.kind = beforeEnd tokens := by
  obtain ⟨ks, kinds, lexes⟩ := lexes_of_tokensFrom lexed
  obtain ⟨ts, position, rfl, rfl⟩ := kinds_eq_concat kinds
  rw [beforeEnd_append lexes.eof_notMem rfl]
  refine ⟨lexes, ?_, ts, position, rfl, rfl⟩
  intro t member digits kind
  rcases List.mem_append.mp member with inside | last
  · exact lexes.readable (kind ▸ List.mem_map_of_mem inside)
  · obtain rfl := List.mem_singleton.mp last
    cases kind

theorem writes_of_parseTokens (readable : Readable tokens) (read : parseTokens tokens = .ok t) :
    Writes (beforeEnd tokens) t := by
  simp only [parseTokens] at read
  split at read
  · cases read
  · rename_i tree rest first
    obtain ⟨ts, rfl, derived⟩ := derives_of_disjunction readable first
    have ends : nextKind rest = .eof ∧ tree = t := by
      split at read
      · exact ⟨rfl, Except.ok.inj read⟩
      · exact ⟨rfl, Except.ok.inj read⟩
      · cases read
    obtain ⟨stop, rfl⟩ := ends
    rw [beforeEnd_append derived.eof_notMem stop]
    rwa [stop] at derived

theorem tooDeep_parseTokens_iff :
    TooDeep (parseTokens tokens) ↔ TooDeep (disjunction depthLimit tokens) := by
  simp only [parseTokens]
  cases disjunction depthLimit tokens with
  | error fault => simp
  | ok result =>
    split
    · cases ‹Except.ok _ = Except.error _›
    · split
      · simp
      · simp
      · simp

theorem parseTokens_of_writes (lexed : tokenize text = .ok tokens)
    (accepted : ¬TooDeep (parseTokens tokens)) (writes : Writes (beforeEnd tokens) t) :
    parseTokens tokens = .ok t := by
  obtain ⟨-, -, ts, position, whole, kinds⟩ := tokens_of_tokenize lexed
  let budget := (beforeEnd tokens).length + depthLimit
  have read : disjunction (budget + 2) tokens = .ok (t, [⟨.eof, position⟩]) :=
    whole ▸ disjunction_of_writes writes kinds rfl (Nat.le_add_right _ _)
  have same : disjunction (budget + 2) tokens = disjunction depthLimit tokens :=
    disjunction_extends (by omega) tokens (tooDeep_parseTokens_iff.not.mp accepted)
  simp only [parseTokens, same.symm.trans read]

/-- The tokens of a text are read as a tree exactly if those before the end write it, unless they
are refused for their depth, as none are that nest no deeper than a condition may. No tokens write
two trees, malformed ones write none, and tokens that write none are refused. -/
theorem parseTokens_exact {text : String} {tokens : List Token}
    (lexed : tokenize text = .ok tokens) :
    (IsShallow (tokens.map Token.kind) → ¬TooDeep (parseTokens tokens)) ∧
    (¬TooDeep (parseTokens tokens) →
      ∀ t, parseTokens tokens = .ok t ↔ Writes (beforeEnd tokens) t) ∧
    ((∀ t, ¬Writes (beforeEnd tokens) t) → ∃ fault, parseTokens tokens = .error fault) ∧
    (∀ ks t t', Writes ks t → Writes ks t' → t = t') ∧
    (∀ ks, Malformed ks → ∀ t, ¬Writes ks t) := by
  obtain ⟨-, readable, -⟩ := tokens_of_tokenize lexed
  refine ⟨fun shallow => tooDeep_parseTokens_iff.not.mpr (not_tooDeep_of_isShallow shallow), ?_, ?_,
    fun _ _ _ => Writes.unique, fun _ malformed _ writes => writes.not_malformed malformed⟩
  · intro accepted t
    exact ⟨writes_of_parseTokens readable, parseTokens_of_writes lexed accepted⟩
  · intro none
    cases read : parseTokens tokens with
    | ok t => exact absurd (writes_of_parseTokens readable read) (none t)
    | error fault => exact ⟨fault, rfl⟩

/-- The tokens of `!a && f(b, 'x')`. -/
def tokensOfSample : List Token :=
  [⟨.not, 0⟩, ⟨.ident "a", 1⟩, ⟨.operator .and, 3⟩, ⟨.ident "f", 6⟩, ⟨.lparen, 7⟩, ⟨.ident "b", 8⟩,
    ⟨.comma, 9⟩, ⟨.text "x", 11⟩, ⟨.rparen, 14⟩, ⟨.eof, 15⟩]

/-- The tree of `!a && f(b, 'x')`. -/
def treeOfSample : Tree :=
  .binary .and (.not (.path "a")) (.call "f" [.path "b", .literal (.text "x")])

set_option maxRecDepth 10000 in
theorem parseTokens_exact_sample :
    tokenize "!a && f(b, 'x')" = .ok tokensOfSample ∧ ¬TooDeep (parseTokens tokensOfSample) ∧
      Writes (beforeEnd tokensOfSample) treeOfSample := by
  have lexed : tokenize "!a && f(b, 'x')" = .ok tokensOfSample := by cbv
  obtain ⟨shallow, reads, -⟩ := parseTokens_exact lexed
  have accepted := shallow (by decide)
  exact ⟨lexed, accepted, (reads accepted treeOfSample).mp rfl⟩

end Acceptance

end Drydock.Expr
