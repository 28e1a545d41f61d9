import Drydock.Context
import Drydock.Proofs.Expr.Composition
import Drydock.Proofs.Expr.Overflow

set_option autoImplicit false
set_option relaxedAutoImplicit false

/-!
Calls that a condition cannot make. Main statement: where all integers lie within the range of
doubles, a condition is refused exactly if a call in it, whether it matters to the value or not,
names no function or has a number of arguments that the function does not take, and the refusal is
that of the first such call, calls counting from left to right and after those in their arguments.
-/

namespace Drydock

section Magnitudes

/-- An integer is not beyond the greatest double; any other scalar is no integer. -/
def Scalar.isWithinDoubles : Scalar → Bool
  | .int n => (Number.ofInt? n).isSome
  | _ => true

namespace Value

mutual

/-- No integer in a value, its keys included, lies beyond the greatest double. -/
def isWithinDoubles : Value → Bool
  | .scalar s => s.isWithinDoubles
  | .list items => areWithinDoubles items
  | .map entries => areEntriesWithinDoubles entries
  | .set items => items.all Scalar.isWithinDoubles
  | .pair a b => a.isWithinDoubles && b.isWithinDoubles
  | .labelled _ content => content.isWithinDoubles
termination_by structural v => v

/-- No integer in the items of a list lies beyond the greatest double. -/
def areWithinDoubles : List Value → Bool
  | [] => true
  | v :: r => v.isWithinDoubles && areWithinDoubles r
termination_by structural items => items

/-- No integer in the entries of a map lies beyond the greatest double. -/
def areEntriesWithinDoubles : List (Scalar × Value) → Bool
  | [] => true
  | (k, v) :: r => k.isWithinDoubles && v.isWithinDoubles && areEntriesWithinDoubles r
termination_by structural entries => entries

end

end Value

/-- An integer of more than 1026 binary digits has no nearest double. -/
theorem Number.log2_lt_of_ofInt? {n : Int} {x : Float} (found : Number.ofInt? n = some x) :
    n.natAbs.log2 < 1026 := by
  have below : Number.nearestBits n.natAbs 1 < Number.infinityBits := by
    simp only [Number.ofInt?] at found
    split at found
    · assumption
    · cases found
  by_contra large
  have some : n.natAbs ≠ 0 := by
    rintro none
    exact large (by rw [none]; decide)
  -- the exponent alone makes the bits at least those of infinity
  have exponent : 2047 ≤ (Number.exponentFor n.natAbs 1 + 1074).toNat := by
    have least : (n.natAbs.log2 : Int) - 53 ≤ Number.exponentFor n.natAbs 1 := by
      have unit : Nat.log2 1 = 0 := by decide
      simp only [Number.exponentFor, unit]
      split <;> omega
    omega
  have bits : Number.infinityBits ≤
      (Number.exponentFor n.natAbs 1 + 1074).toNat * Number.twoTo 52 :=
    Nat.mul_le_mul_right _ exponent
  simp only [Number.nearestBits, if_neg some] at below
  omega

theorem Number.lt_tenTo {n k : Nat} (digits : n.log2 < 3 * k) : n < Number.tenTo k := calc
  n < 2 ^ (n.log2 + 1) := Nat.lt_log2_self
  _ ≤ 2 ^ (3 * k) := Nat.pow_le_pow_right two_pos digits
  _ = (2 ^ 3) ^ k := Nat.pow_mul 2 3 k
  _ ≤ Number.tenTo k := Nat.pow_le_pow_left (by decide) k

theorem Number.isWritable_of_ofInt? {n : Int} {x : Float} (found : Number.ofInt? n = some x) :
    Number.isWritable n = true := by
  have digits : n.natAbs.log2 < 3 * Number.mostDigits :=
    (Number.log2_lt_of_ofInt? found).trans_le (by decide)
  exact decide_eq_true (Number.lt_tenTo digits)

theorem Scalar.isWritable_of_isWithinDoubles {s : Scalar} (within : s.isWithinDoubles = true) :
    s.isWritable = true := by
  cases s with
  | int n =>
    obtain ⟨x, found⟩ := Option.isSome_iff_exists.mp within
    exact Number.isWritable_of_ofInt? found
  | null | bool | float | text | bytes | date | moment => rfl

theorem Value.isWritableIn_of_isWithinDoubles (v : Value) :
    ∀ shown, v.isWithinDoubles = true → v.isWritableIn shown = true := by
  refine @Value.rec (fun v => ∀ shown, v.isWithinDoubles = true → v.isWritableIn shown = true)
    (fun items => ∀ shown, areWithinDoubles items = true → areWritableIn shown items = true)
    (fun entries => ∀ shown, areEntriesWithinDoubles entries = true →
      areEntriesWritableIn shown entries = true)
    (fun e => ∀ shown, e.2.isWithinDoubles = true → e.2.isWritableIn shown = true)
    ?scalar ?list ?map ?set ?pair ?labelled ?noItem ?item ?noEntry ?entry ?under v
  case scalar => exact fun s shown => Scalar.isWritable_of_isWithinDoubles
  case list => exact fun items ih shown => ih shown
  case map => exact fun entries ih shown => ih shown
  case set =>
    intro items shown within
    refine List.all_eq_true.mpr fun s member => ?_
    exact Scalar.isWritable_of_isWithinDoubles (List.all_eq_true.mp within s member)
  case pair =>
    intro a b first second shown within
    obtain ⟨left, right⟩ := Bool.and_eq_true_iff.mp within
    exact Bool.and_eq_true_iff.mpr ⟨first shown left, second shown right⟩
  case labelled =>
    intro id content ih shown within
    exact Bool.or_eq_true_iff.mpr (.inr (ih (id :: shown) within))
  case noItem => exact fun _ _ => rfl
  case item =>
    intro v r first others shown within
    obtain ⟨here, rest⟩ := Bool.and_eq_true_iff.mp within
    exact Bool.and_eq_true_iff.mpr ⟨first shown here, others shown rest⟩
  case noEntry => exact fun _ _ => rfl
  case entry =>
    rintro ⟨k, v⟩ r first others shown within
    obtain ⟨here, rest⟩ := Bool.and_eq_true_iff.mp within
    obtain ⟨key, value⟩ := Bool.and_eq_true_iff.mp here
    have key' : k.isWritable = true := Scalar.isWritable_of_isWithinDoubles key
    have here' := Bool.and_eq_true_iff.mpr ⟨key', first shown value⟩
    exact Bool.and_eq_true_iff.mpr ⟨here', others shown rest⟩
  case under => exact fun _ _ ih => ih

theorem Expr.asFloat_of_isWithinDoubles {v : Value} (within : v.isWithinDoubles = true) :
    ∃ x, asFloat v = .ok x := by
  simp only [asFloat]
  split
  · rename_i n
    obtain ⟨x, found⟩ := Option.isSome_iff_exists.mp within
    simp only [found]
    exact ⟨x, rfl⟩
  · exact ⟨_, rfl⟩
  · exact ⟨_, rfl⟩

end Magnitudes

namespace Expr

mutual

/-- The literals in a tree. -/
def Tree.literals : Tree → List Value
  | .literal v => [v]
  | .path _ => []
  | .not operand => operand.literals
  | .binary _ left right => left.literals ++ right.literals
  | .call _ args => Tree.literalsOfAll args
termination_by structural t => t

/-- The literals in several trees. -/
def Tree.literalsOfAll : List Tree → List Value
  | [] => []
  | t :: r => t.literals ++ Tree.literalsOfAll r
termination_by structural ts => ts

end

/-- A call as far as it can be refused: the name of the function and the number of arguments. -/
structure CallSite where
  name : String
  count : Nat
  deriving DecidableEq, Repr

mutual

/-- The calls in a tree from left to right, each after those in its arguments. -/
def Tree.calls : Tree → List CallSite
  | .literal _ | .path _ => []
  | .not operand => operand.calls
  | .binary _ left right => left.calls ++ right.calls
  | .call name args => Tree.callsOfAll args ++ [⟨name, args.length⟩]
termination_by structural t => t

/-- The calls in several trees. -/
def Tree.callsOfAll : List Tree → List CallSite
  | [] => []
  | t :: r => t.calls ++ Tree.callsOfAll r
termination_by structural ts => ts

end

/-- A call has a value: its function is known and takes that many arguments. -/
def CallSite.IsValid (c : CallSite) : Prop :=
  c.name ∈ ["contains", "startsWith", "endsWith"] ∧ c.count = 2 ∨
    c.name = "format" ∧ 1 ≤ c.count ∨
    c.name = "join" ∧ (c.count = 1 ∨ c.count = 2) ∨
    c.name ∈ ["always", "success", "failure", "cancelled"]

/-- What is said of a call that has no value. -/
def CallSite.refusal (c : CallSite) : String :=
  if c.name ∈ ["contains", "startsWith", "endsWith"] then
    c.name ++ "() requires 2 argument(s), got " ++ toString c.count
  else if c.name = "format" then
    "format() requires at least 1 argument(s), got " ++ toString c.count
  else if c.name = "join" then
    "join() requires 1 to 2 argument(s), got " ++ toString c.count
  else "unknown function: " ++ c.name

theorem Tree.mem_literalsOfAll {args : List Tree} {v : Value} :
    v ∈ Tree.literalsOfAll args ↔ ∃ t ∈ args, v ∈ t.literals := by
  induction args with
  | nil => simp [Tree.literalsOfAll]
  | cons t r ih => simp [Tree.literalsOfAll, ih]

theorem Builtin.name_of_ofName? {name : String} {f : Builtin}
    (found : Builtin.ofName? name = some f) : f.name = name := by
  have same := List.find?_some (show all.find? (fun f => f.name == name) = some f from found)
  exact beq_iff_eq.mp same

theorem Builtin.name_ne_of_ofName? {name : String} (unknown : Builtin.ofName? name = none)
    (f : Builtin) : name ≠ f.name := by
  have member : f ∈ Builtin.all := by cases f <;> decide
  have other := List.find?_eq_none.mp unknown f member
  exact fun same => other (beq_iff_eq.mpr same.symm)

section Calls

variable {name : String} {count : Nat}

theorem Arity.admits_iff {a : Arity} :
    a.admits count = true ↔ a.low ≤ count ∧ ∀ most ∈ a.high, count ≤ most := by
  simp only [Arity.admits, Bool.and_eq_true, decide_eq_true_eq]
  cases a.high <;> simp

theorem CallSite.isValid_builtin (f : Builtin) :
    CallSite.IsValid ⟨f.name, count⟩ ↔ f.arity.admits count = true := by
  rw [Arity.admits_iff]
  cases f <;> simp [IsValid, Builtin.name, Builtin.arity] <;> omega

theorem CallSite.refusal_builtin {f : Builtin} (refused : ¬f.arity.admits count = true) :
    (CallFault.arity f.name f.arity count).message = CallSite.refusal ⟨f.name, count⟩ := by
  cases f with
  | contains | startsWith | endsWith | format | join => rfl
  | always | success | failure | cancelled => exact absurd rfl refused

theorem CallSite.not_isValid_of_unknown (unknown : Builtin.ofName? name = none) (count : Nat) :
    ¬CallSite.IsValid ⟨name, count⟩ ∧
      CallSite.refusal ⟨name, count⟩ = "unknown function: " ++ name := by
  have other := Builtin.name_ne_of_ofName? unknown
  have contains := other .contains
  have startsWith := other .startsWith
  have endsWith := other .endsWith
  have format := other .format
  have join := other .join
  have always := other .always
  have success := other .success
  have failure := other .failure
  have cancelled := other .cancelled
  simp only [Builtin.name] at *
  simp [IsValid, refusal, *]

/-- A call is refused as a call site, or has a value that is no number. -/
theorem call_cases (name : String) (args : List Value) :
    (CallSite.IsValid ⟨name, args.length⟩ ∧ ∃ v, call name args = .ok v ∧ asFloat v = .ok 0) ∨
    (¬CallSite.IsValid ⟨name, args.length⟩ ∧ ∃ fault, call name args = .error fault ∧
      fault.message = CallSite.refusal ⟨name, args.length⟩) := by
  cases found : Builtin.ofName? name with
  | none =>
    obtain ⟨invalid, refusal⟩ := CallSite.not_isValid_of_unknown found args.length
    have refused : call name args = .error (.unknownFunction name) := by simp only [call, found]
    exact .inr ⟨invalid, _, refused, refusal.symm⟩
  | some f =>
    obtain rfl := Builtin.name_of_ofName? found
    rw [CallSite.isValid_builtin]
    by_cases admitted : f.arity.admits args.length = true
    · have value : call f.name args = .ok (f.apply args) := by
        simp only [call, found, if_pos admitted]
      exact .inl ⟨admitted, _, value, asFloat_apply f args⟩
    · have refused : call f.name args = .error (.arity f.name f.arity args.length) := by
        simp only [call, found, if_neg admitted]
      exact .inr ⟨admitted, _, refused, CallSite.refusal_builtin admitted⟩

/-- An evaluation that meets these calls: all of them are valid and it gives something that `P` holds
of, or it stops at the first that is not. -/
inductive Settles {α : Type} (P : α → Prop) : List CallSite → Except EvalFault α → Prop
  | value {calls : List CallSite} {a : α} (valid : ∀ c ∈ calls, c.IsValid) (holds : P a) :
      Settles P calls (.ok a)
  | refused {before after : List CallSite} {c : CallSite} {fault : CallFault}
      (valid : ∀ b ∈ before, b.IsValid) (invalid : ¬c.IsValid) (worded : fault.message = c.refusal) :
      Settles P (before ++ c :: after) (.error (.call fault))

end Calls

namespace Settles

variable {α β : Type} {P : α → Prop} {Q : β → Prop} {calls more : List CallSite}
  {x : Except EvalFault α} {f : α → Except EvalFault β}

theorem pure {a : α} (holds : P a) : Settles P [] (.ok a) :=
  .value (by simp) holds

theorem stop {c : CallSite} {fault : CallFault} (invalid : ¬c.IsValid)
    (worded : fault.message = c.refusal) : Settles P [c] (.error (.call fault)) := by
  have none : ∀ b ∈ ([] : List CallSite), b.IsValid := by simp
  exact .refused none invalid worded

theorem bind (first : Settles P calls x) (next : ∀ a, P a → Settles Q more (f a)) :
    Settles Q (calls ++ more) (x >>= f) := by
  cases first with
  | refused valid invalid worded =>
    rw [List.append_assoc, List.cons_append]
    exact .refused valid invalid worded
  | @value _ a valid holds =>
    have rest : Settles Q more (Except.ok a >>= f) := next a holds
    revert rest
    generalize (Except.ok a >>= f : Except EvalFault β) = y
    rintro (⟨valid', holds'⟩ | ⟨valid', invalid, worded⟩)
    · exact .value (List.forall_mem_append.mpr ⟨valid, valid'⟩) holds'
    · rw [← List.append_assoc]
      exact .refused (List.forall_mem_append.mpr ⟨valid, valid'⟩) invalid worded

theorem bind_last (first : Settles P calls x) (next : ∀ a, P a → Settles Q [] (f a)) :
    Settles Q calls (x >>= f) := by
  have whole := first.bind next
  rwa [List.append_nil] at whole

end Settles

section Evaluation

variable {lookup : String → Option Value}

/-- An outcome can be compared by size. -/
def Outcome.IsSized (x : Outcome) : Prop :=
  ∃ size, asFloat x.value = .ok size

theorem exists_apply (op : Operator) {x y : Value} (left : ∃ size, asFloat x = .ok size)
    (right : ∃ size, asFloat y = .ok size) : ∃ b, op.apply x y = .ok b := by
  obtain ⟨a, left⟩ := left
  obtain ⟨b, right⟩ := right
  cases op with
  | eq | ne | and | or => exact ⟨_, rfl⟩
  | lt | gt | le | ge =>
    simp only [Operator.apply, compare, left, right]
    exact ⟨_, rfl⟩

theorem settles_mapM {f : Tree → Except EvalFault Outcome} {args : List Tree}
    (each : ∀ t ∈ args, Settles Outcome.IsSized t.calls (f t)) :
    Settles (fun xs : List Outcome => xs.length = args.length) (Tree.callsOfAll args)
      (args.mapM f) := by
  induction args with
  | nil => exact .pure rfl
  | cons t r ih =>
    obtain ⟨first, others⟩ := List.forall_mem_cons.mp each
    rw [List.mapM_cons]
    refine first.bind fun x _ => (ih others).bind_last fun xs count => ?_
    exact .pure (congrArg Nat.succ count)

theorem settles_eval {n : Nat} {t : Tree} (deep : t.height ≤ n)
    (literals : ∀ v ∈ t.literals, v.isWithinDoubles = true)
    (found : ∀ name ∈ t.paths, ∀ v, lookup name = some v → v.isWithinDoubles = true) :
    Settles Outcome.IsSized t.calls (eval lookup n t) := by
  induction n generalizing t with
  | zero => cases t <;> simp [Tree.height] at deep
  | succ n ih =>
    cases t with
    | literal v => exact .pure (asFloat_of_isWithinDoubles (literals v List.mem_cons_self))
    | path name =>
      have within : ((lookup name).getD .null).isWithinDoubles = true := by
        cases answer : lookup name with
        | none => rfl
        | some v => exact found name List.mem_cons_self v answer
      have written : ((lookup name).getD .null).isWritable = true :=
        Value.isWritableIn_of_isWithinDoubles _ [] within
      simp only [eval]
      rw [if_pos written]
      exact .pure (asFloat_of_isWithinDoubles within)
    | not operand =>
      have first := ih (Nat.le_of_succ_le_succ deep) literals found
      exact first.bind_last fun _ _ => .pure ⟨0, rfl⟩
    | binary op left right =>
      obtain ⟨onLeft, onRight⟩ := Nat.max_le.mp (Nat.le_of_succ_le_succ deep)
      obtain ⟨literals, literals'⟩ := List.forall_mem_append.mp literals
      obtain ⟨found, found'⟩ := List.forall_mem_append.mp found
      refine (ih onLeft literals found).bind fun x sized => ?_
      refine (ih onRight literals' found').bind_last fun y sized' => ?_
      obtain ⟨b, applied⟩ := exists_apply op sized sized'
      rw [applied]
      exact .pure ⟨0, rfl⟩
    | call name args =>
      have each : ∀ t ∈ args, Settles Outcome.IsSized t.calls (eval lookup n t) := by
        intro t member
        have below := (Tree.height_le_heightOfAll member).trans (Nat.le_of_succ_le_succ deep)
        refine ih below (fun v inside => literals v ?_) fun name path => found name ?_
        · exact Tree.mem_literalsOfAll.mpr ⟨t, member, inside⟩
        · exact Tree.mem_pathsOfAll.mpr ⟨t, member, path⟩
      refine (settles_mapM each).bind fun xs count => ?_
      have site := call_cases name (xs.map Outcome.value)
      rw [List.length_map, count] at site
      rcases site with ⟨valid, v, value, size⟩ | ⟨invalid, fault, refused, worded⟩
      · simp only [value]
        exact .value (List.forall_mem_singleton.mpr valid) ⟨0, size⟩
      · simp only [refused]
        exact .stop invalid worded

end Evaluation

/-- The literals in a phrase. -/
def Phrase.literals : Phrase → List Value
  | .tree _ t => t.literals
  | .arguments ts => Tree.literalsOfAll ts

/-- The literals that tokens write are doubles, texts, truth values and absence. -/
theorem Derives.isWithinDoubles {p : Phrase} {ks : List Kind} {next : Kind}
    (derived : Derives p ks next) : ∀ v ∈ p.literals, v.isWithinDoubles = true := by
  induction derived with
  | operand _ _ ih => exact ih
  | operation _ _ _ _ first second => exact List.forall_mem_append.mpr ⟨first, second⟩
  | negation _ ih => exact ih
  | text | number | bool | null => exact List.forall_mem_singleton.mpr rfl
  | path | emptyCall => exact List.forall_mem_nil _
  | call _ _ _ ih => exact ih
  | group _ _ ih => exact ih
  | lastArgument _ ih => simpa [Phrase.literals, Tree.literalsOfAll] using ih
  | argument _ _ first others => exact List.forall_mem_append.mpr ⟨first, others⟩

/-- Data with nothing but a number in the matrix. -/
def numbered : Context :=
  { Context.empty with matrix := .ofList [("n", .int 5)] }

end Expr

end Drydock
