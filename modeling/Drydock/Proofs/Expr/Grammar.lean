import Drydock.Expr.Syntax
import Drydock.Number.Reading
import Mathlib.Data.List.Chain

set_option autoImplicit false
set_option relaxedAutoImplicit false

/-!
The grammar of conditions, over the kinds of tokens. Main statements: how a phrase begins and ends,
which tokens can stand side by side in one, and that parentheses in it are balanced.
-/

namespace Drydock.Expr

/-- The levels of binding, from the loosest to the tightest. -/
inductive Level
  | disjunction | conjunction | equality | relation | negation | primary
  deriving DecidableEq, Repr

/-- The operators between the operands of a level. -/
def Level.operators : Level → List Operator
  | .disjunction => [.or]
  | .conjunction => [.and]
  | .equality => [.eq, .ne]
  | .relation => [.lt, .gt, .le, .ge]
  | .negation | .primary => []

/-- The level of the operands of a level. -/
def Level.operand? : Level → Option Level
  | .disjunction => some .conjunction
  | .conjunction => some .equality
  | .equality => some .relation
  | .relation => some .negation
  | .negation => some .primary
  | .primary => none

/-- What tokens can write: a tree at a level, or the arguments of a call. -/
inductive Phrase
  | tree (level : Level) (t : Tree)
  | arguments (ts : List Tree)

/-- Tokens write a phrase, where `next` is the token that follows them. Operators of a level group
to the left, and a name is a path only where no parenthesis follows. -/
inductive Derives : Phrase → List Kind → Kind → Prop
  | operand {outer inner : Level} {t : Tree} {ks : List Kind} {next : Kind}
      (below : outer.operand? = some inner) (whole : Derives (.tree inner t) ks next) :
      Derives (.tree outer t) ks next
  | operation {outer inner : Level} {op : Operator} {left right : Tree} {ls rs : List Kind}
      {next : Kind} (below : outer.operand? = some inner) (joins : op ∈ outer.operators)
      (first : Derives (.tree outer left) ls (.operator op))
      (second : Derives (.tree inner right) rs next) :
      Derives (.tree outer (.binary op left right)) (ls ++ .operator op :: rs) next
  | negation {t : Tree} {ks : List Kind} {next : Kind}
      (operand : Derives (.tree .negation t) ks next) :
      Derives (.tree .negation (.not t)) (.not :: ks) next
  | text (content : String) (next : Kind) :
      Derives (.tree .primary (.literal (.text content))) [.text content] next
  | number {digits : String} {x : Float} (next : Kind)
      (value : Number.readFloat? digits.toList = some x) :
      Derives (.tree .primary (.literal (.float x))) [.number digits] next
  | bool (b : Bool) (next : Kind) : Derives (.tree .primary (.literal (.bool b))) [.bool b] next
  | null (next : Kind) : Derives (.tree .primary (.literal .null)) [.null] next
  | path (name : String) {next : Kind} (bare : next ≠ .lparen) :
      Derives (.tree .primary (.path name)) [.ident name] next
  | emptyCall (name : String) (next : Kind) :
      Derives (.tree .primary (.call name [])) [.ident name, .lparen, .rparen] next
  | call (name : String) {ts : List Tree} {ks : List Kind} (next : Kind)
      (args : Derives (.arguments ts) ks .rparen) :
      Derives (.tree .primary (.call name ts)) (.ident name :: .lparen :: (ks ++ [.rparen])) next
  | group {t : Tree} {ks : List Kind} (next : Kind)
      (inner : Derives (.tree .disjunction t) ks .rparen) :
      Derives (.tree .primary t) (.lparen :: (ks ++ [.rparen])) next
  | lastArgument {t : Tree} {ks : List Kind} {next : Kind}
      (arg : Derives (.tree .disjunction t) ks next) : Derives (.arguments [t]) ks next
  | argument {t : Tree} {ts : List Tree} {ks rs : List Kind} {next : Kind}
      (arg : Derives (.tree .disjunction t) ks .comma) (others : Derives (.arguments ts) rs next) :
      Derives (.arguments (t :: ts)) (ks ++ .comma :: rs) next

/-- Tokens write a condition from their start to their end. -/
def Writes (ks : List Kind) (t : Tree) : Prop :=
  Derives (.tree .disjunction t) ks .eof

/-- A token with which a phrase can begin. -/
def Kind.opens : Kind → Bool
  | .ident _ | .text _ | .number _ | .bool _ | .null | .lparen | .not => true
  | _ => false

/-- A token with which a phrase can end. -/
def Kind.closes : Kind → Bool
  | .ident _ | .text _ | .number _ | .bool _ | .null | .rparen => true
  | _ => false

/-- The second token can stand right after the first: an operator between phrases, a phrase after
what calls for one, or the parentheses of a call. -/
def Kind.admits : Kind → Kind → Bool
  | .ident _, .lparen | .lparen, .rparen => true
  | a, b => if a.closes then !b.opens else b.opens

/-- Some token opens the phrase, some token closes it, and its tokens can stand side by side. -/
structure IsRow (ks : List Kind) : Prop where
  first : ∃ k r, ks = k :: r ∧ k.opens = true
  last : ∃ r k, ks = r ++ [k] ∧ k.closes = true
  chain : ks.IsChain fun a b => a.admits b = true

namespace IsRow

variable {k : Kind} {ks rs : List Kind}

theorem singleton (opens : k.opens = true) (closes : k.closes = true) : IsRow [k] :=
  ⟨⟨k, [], rfl, opens⟩, ⟨[], k, rfl, closes⟩, List.isChain_singleton k⟩

theorem ne_nil (row : IsRow ks) : ks ≠ [] := by
  obtain ⟨k, r, rfl, -⟩ := row.first
  exact List.cons_ne_nil k r

theorem admits_of_closes {a b : Kind} (closes : a.closes = true) (opens : b.opens = false) :
    a.admits b = true := by
  cases a <;> cases b <;> simp_all [Kind.admits, Kind.closes, Kind.opens]

theorem admits_of_opens {a b : Kind} (closes : a.closes = false) (opens : b.opens = true) :
    a.admits b = true := by
  cases a <;> cases b <;> simp_all [Kind.admits, Kind.closes, Kind.opens]

/-- What follows a phrase after a token that ends no phrase is one row with it. -/
theorem join (row : IsRow ks) (others : IsRow rs) (opens : k.opens = false)
    (closes : k.closes = false) : IsRow (ks ++ k :: rs) := by
  obtain ⟨a, r, rfl, begins⟩ := row.first
  obtain ⟨r', z, same, ends⟩ := row.last
  obtain ⟨b, s, rfl, begins'⟩ := others.first
  obtain ⟨s', y, same', ends'⟩ := others.last
  refine ⟨⟨a, r ++ k :: b :: s, rfl, begins⟩, ⟨a :: r ++ k :: s', y, by simp [same'], ends'⟩, ?_⟩
  refine List.isChain_append.mpr ⟨row.chain, ?_, ?_⟩
  · exact List.isChain_cons_cons.mpr ⟨admits_of_opens closes begins', others.chain⟩
  · rw [same]
    intro x found y found'
    obtain rfl : z = x := by simpa using found
    obtain rfl : k = y := by simpa using found'
    exact admits_of_closes ends opens

/-- A phrase in parentheses is one row with them. -/
theorem enclosed (row : IsRow ks) : IsRow (.lparen :: (ks ++ [.rparen])) := by
  obtain ⟨a, r, rfl, begins⟩ := row.first
  obtain ⟨r', z, same, ends⟩ := row.last
  refine ⟨⟨.lparen, _, rfl, rfl⟩, ⟨.lparen :: a :: r, .rparen, rfl, rfl⟩, ?_⟩
  refine List.isChain_cons_cons.mpr ⟨admits_of_opens rfl begins, ?_⟩
  refine List.isChain_append.mpr ⟨row.chain, List.isChain_singleton _, ?_⟩
  rw [same]
  intro x found y found'
  obtain rfl : z = x := by simpa using found
  obtain rfl : Kind.rparen = y := by simpa using found'
  exact admits_of_closes ends rfl

theorem preceded (row : IsRow ks) (opens : k.opens = true)
    (admits : ∀ b r, ks = b :: r → b.opens = true → k.admits b = true) : IsRow (k :: ks) := by
  obtain ⟨b, r, rfl, begins⟩ := row.first
  obtain ⟨r', z, same, ends⟩ := row.last
  refine ⟨⟨k, _, rfl, opens⟩, ⟨k :: r', z, by simp [same], ends⟩, ?_⟩
  exact List.isChain_cons_cons.mpr ⟨admits b r rfl begins, row.chain⟩

end IsRow

namespace Derives

variable {p : Phrase} {ks : List Kind} {next : Kind}

theorem isRow (derived : Derives p ks next) : IsRow ks := by
  induction derived with
  | operand _ _ ih => exact ih
  | operation _ _ _ _ first second => exact first.join second rfl rfl
  | negation _ ih => exact ih.preceded rfl fun _ _ _ opens => IsRow.admits_of_opens rfl opens
  | text | number | bool | null | path => exact .singleton rfl rfl
  | emptyCall name =>
    exact ⟨⟨_, _, rfl, rfl⟩, ⟨[.ident name, .lparen], .rparen, rfl, rfl⟩, by simp [Kind.admits]⟩
  | call _ _ _ ih =>
    refine ih.enclosed.preceded rfl ?_
    intro b r same opens
    obtain ⟨rfl, -⟩ := List.cons.inj same
    rfl
  | group _ _ ih => exact ih.enclosed
  | lastArgument _ ih => exact ih
  | argument _ _ first others => exact first.join others rfl rfl

theorem count_parens (derived : Derives p ks next) : ks.count .lparen = ks.count .rparen := by
  induction derived with
  | operand _ _ ih | lastArgument _ ih => exact ih
  | operation _ _ _ _ first second => simp [first, second]
  | negation _ ih => simpa using ih
  | text | number | bool | null | path | emptyCall => simp
  | call _ _ _ ih | group _ _ ih => simp [ih]
  | argument _ _ first others => simp [first, others]

theorem eof_notMem (derived : Derives p ks next) : Kind.eof ∉ ks := by
  induction derived with
  | operand _ _ ih | lastArgument _ ih => exact ih
  | operation _ _ _ _ first second => simp [first, second]
  | negation _ ih => simpa using ih
  | text | number | bool | null | path | emptyCall => simp
  | call _ _ _ ih | group _ _ ih => simp [ih]
  | argument _ _ first others => simp [first, others]

/-- What follows a phrase matters only in that a parenthesis would make a call of a name. -/
theorem of_next (derived : Derives p ks next) {other : Kind} (bare : other ≠ .lparen) :
    Derives p ks other := by
  induction derived with
  | operand below _ ih => exact .operand below ih
  | operation below joins first _ _ second => exact .operation below joins first second
  | negation _ ih => exact .negation ih
  | text content => exact .text content other
  | number _ value => exact .number other value
  | bool b => exact .bool b other
  | null => exact .null other
  | path name => exact .path name bare
  | emptyCall name => exact .emptyCall name other
  | call name _ args => exact .call name other args
  | group _ inner => exact .group other inner
  | lastArgument _ ih => exact .lastArgument ih
  | argument arg _ _ others => exact .argument arg others

end Derives

end Drydock.Expr
