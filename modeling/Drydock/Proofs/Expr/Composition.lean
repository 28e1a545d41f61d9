import Drydock.Proofs.Expr.Writing
import Drydock.Proofs.Traversal

set_option autoImplicit false
set_option relaxedAutoImplicit false

/-!
Conditions put together from others. Main statement: a group, a negation, an operation and a call
whose parts are written out as texts have the outcomes that the outcomes of the parts alone
determine, the first fault among them included.
-/

namespace Drydock.Expr

/-- What stops an evaluation, as what is wrong with a text. -/
def EvalFault.inText (source : String) : EvalFault → Fault
  | .call fault => .call fault
  | .integerTooLarge => .integerTooLarge
  | .integerTooLong => .integerTooLong
  | .nestedTooDeeply => .badSyntax ⟨.nestedTooDeeply, none⟩ source

/-- A text is refused for its depth. -/
def IsDeep (result : Except Fault Outcome) : Prop :=
  ∃ position source, result = .error (.badSyntax ⟨.nestedTooDeeply, position⟩ source)

mutual

/-- How many trees a tree has below each other. -/
def Tree.height : Tree → Nat
  | .literal _ | .path _ => 1
  | .not operand => operand.height + 1
  | .binary _ left right => max left.height right.height + 1
  | .call _ args => Tree.heightOfAll args + 1
termination_by structural t => t

/-- The greatest height of several trees. -/
def Tree.heightOfAll : List Tree → Nat
  | [] => 0
  | t :: r => max t.height (Tree.heightOfAll r)
termination_by structural ts => ts

end

variable {lookup : String → Option Value}

section Budget

theorem Tree.height_le_heightOfAll {args : List Tree} {t : Tree} (member : t ∈ args) :
    t.height ≤ Tree.heightOfAll args := by
  induction args with
  | nil => cases member
  | cons x r ih =>
    rcases List.mem_cons.mp member with rfl | later
    · exact le_max_left _ _
    · exact (ih later).trans (le_max_right _ _)

theorem asFloat_eq_error {v : Value} {fault : EvalFault} (refused : asFloat v = .error fault) :
    fault = .integerTooLarge := by
  simp only [asFloat] at refused
  split at refused
  · split at refused
    · cases refused
    · cases refused
      rfl
  · cases refused
  · cases refused

theorem compare_eq_error {holds : Float → Float → Bool} {x y : Value} {fault : EvalFault}
    (refused : compare holds x y = .error fault) : fault = .integerTooLarge := by
  rcases bind_eq_error_iff.mp refused with first | ⟨_, -, rest⟩
  · exact asFloat_eq_error first
  · rcases bind_eq_error_iff.mp rest with second | ⟨_, -, impossible⟩
    · exact asFloat_eq_error second
    · cases impossible

/-- An operator fails at nothing but an integer beyond the range of doubles. -/
theorem apply_eq_error {op : Operator} {x y : Value} {fault : EvalFault}
    (refused : op.apply x y = .error fault) : fault = .integerTooLarge := by
  cases op with
  | eq | ne | and | or => cases refused
  | lt | gt | le | ge => exact compare_eq_error refused

/-- A greater budget changes no outcome but a refusal for depth. -/
theorem eval_of_le {n m : Nat} {t : Tree} (more : n ≤ m)
    (accepted : eval lookup n t ≠ .error .nestedTooDeeply) : eval lookup m t = eval lookup n t := by
  induction n generalizing m t with
  | zero => exact absurd rfl accepted
  | succ n ih =>
    obtain ⟨m, rfl⟩ : ∃ k, m = k + 1 := ⟨m - 1, by omega⟩
    have parts (t : Tree) : eval lookup n t ≠ .error .nestedTooDeeply →
        eval lookup m t = eval lookup n t := ih (Nat.le_of_succ_le_succ more)
    cases t with
    | literal | path => rfl
    | not operand => exact bind_eq_of_ne_error (parts operand) (fun _ _ => rfl) accepted
    | binary op left right =>
      refine bind_eq_of_ne_error (parts left) (fun x => ?_) accepted
      exact bind_eq_of_ne_error (parts right) fun _ _ => rfl
    | call name args =>
      refine bind_eq_of_ne_error ?_ (fun _ _ => rfl) accepted
      exact mapM_eq_of_ne_error fun t _ => parts t

theorem eval_ne_nestedTooDeeply {n : Nat} {t : Tree} (fits : t.height ≤ n) :
    eval lookup n t ≠ .error .nestedTooDeeply := by
  induction n generalizing t with
  | zero => cases t <;> simp [Tree.height] at fits
  | succ n ih =>
    intro refused
    cases t with
    | literal => cases refused
    | path =>
      simp only [eval] at refused
      split at refused <;> cases refused
    | not operand =>
      rcases bind_eq_error_iff.mp refused with first | ⟨_, -, impossible⟩
      · exact ih (Nat.le_of_succ_le_succ fits) first
      · cases impossible
    | binary op left right =>
      have fits := Nat.max_le.mp (Nat.le_of_succ_le_succ fits)
      rcases bind_eq_error_iff.mp refused with first | ⟨_, -, rest⟩
      · exact ih fits.1 first
      · rcases bind_eq_error_iff.mp rest with second | ⟨_, -, last⟩
        · exact ih fits.2 second
        · rcases bind_eq_error_iff.mp last with applied | ⟨_, -, impossible⟩
          · cases apply_eq_error applied
          · cases impossible
    | call name args =>
      rcases bind_eq_error_iff.mp refused with first | ⟨_, -, rest⟩
      · obtain ⟨t, member, refused⟩ := mapM_eq_error first
        have below := Tree.height_le_heightOfAll member
        exact ih (below.trans (Nat.le_of_succ_le_succ fits)) refused
      · split at rest <;> cases rest

end Budget

section Carrying

/-- What a tree comes to is what a text comes to, unless the tree is refused for its depth. -/
def Carries {α : Type} (source : String) (x : Except EvalFault α) (y : Except Fault α) : Prop :=
  x ≠ .error .nestedTooDeeply → x.mapError (EvalFault.inText source) = y

variable {α β : Type} {source : String}

theorem carries_pure (a : α) : Carries source (pure a) (pure a) :=
  fun _ => rfl

theorem carries_mapError (x : Except EvalFault α) (text : String) :
    Carries source x (x.mapError (EvalFault.inText text)) := by
  intro accepted
  cases x with
  | ok a => rfl
  | error fault =>
    cases fault with
    | nestedTooDeeply => exact absurd rfl accepted
    | call | integerTooLarge | integerTooLong => rfl

theorem Carries.bind {x : Except EvalFault α} {y : Except Fault α} {f : α → Except EvalFault β}
    {g : α → Except Fault β} (first : Carries source x y) (next : ∀ a, Carries source (f a) (g a)) :
    Carries source (x >>= f) (y >>= g) := by
  intro accepted
  cases x with
  | error fault =>
    have other : (.error fault : Except EvalFault α) ≠ .error .nestedTooDeeply := by
      rintro ⟨⟩
      exact accepted rfl
    rw [← first other]
    rfl
  | ok a =>
    rw [← first (by simp)]
    exact next a accepted

theorem Carries.mapM {σ τ : Type} {f : σ → Except EvalFault β} {g : τ → Except Fault β}
    {xs : List σ} {ys : List τ}
    (each : List.Forall₂ (fun x y => Carries source (f x) (g y)) xs ys) :
    Carries source (xs.mapM f) (ys.mapM g) := by
  induction each with
  | nil => exact carries_pure []
  | cons first _ ih =>
    rw [List.mapM_cons, List.mapM_cons]
    exact first.bind fun a => ih.bind fun as => carries_pure (a :: as)

end Carrying

section Texts

variable {text : String} {t : Tree}

theorem evaluate_of_parse (some : stripWrapper text ≠ "")
    (read : parse (stripWrapper text) = .ok t) :
    evaluate lookup text =
      (eval lookup depthLimit t).mapError (EvalFault.inText (stripWrapper text)) := by
  simp only [evaluate, if_neg some, read]
  cases eval lookup depthLimit t with
  | ok outcome => rfl
  | error fault => cases fault <;> rfl

/-- Part of a text comes to what it comes to alone. -/
theorem carries_of_parse {source : String} {n : Nat} (read : parse text = .ok t)
    (less : n ≤ depthLimit) : Carries source (eval lookup n t) (evaluate lookup text) := by
  intro accepted
  have some := (states_of_parse read).strip.2
  rw [evaluate_of_parse some (parse_stripWrapper read), eval_of_le less accepted]
  exact carries_mapError _ _ accepted

/-- A text that states a tree comes to what the tree comes to. -/
theorem evaluate_of_states (states : States text t) (shallow : ¬IsDeep (evaluate lookup text))
    {y : Except Fault Outcome}
    (carries : Carries (stripWrapper text) (eval lookup depthLimit t) y) :
    evaluate lookup text = y := by
  obtain ⟨stripped, some⟩ := states.strip
  have accepted : ¬TooDeep (parse (stripWrapper text)) := by
    rintro ⟨position, refused⟩
    exact shallow ⟨position, stripWrapper text, by simp only [evaluate, if_neg some, refused]⟩
  have whole := @evaluate_of_parse lookup _ _ some (stripped.parse_eq accepted)
  rw [whole]
  refine carries fun refused => shallow ⟨none, stripWrapper text, ?_⟩
  rw [whole, refused]
  rfl

theorem not_isDeep_of_isShallow {tokens : List Token}
    (lexed : tokenize (stripWrapper text) = .ok tokens)
    (shallow : IsShallow (tokens.map Token.kind))
    (low : ∀ t, parseTokens tokens = .ok t → t.height ≤ depthLimit) :
    ¬IsDeep (evaluate lookup text) := by
  rintro ⟨position, source, refused⟩
  simp only [evaluate, parse, lexed] at refused
  split at refused
  · cases refused
  · split at refused
    · rename_i read
      cases refused
      exact tooDeep_parseTokens_iff.not.mpr (not_tooDeep_of_isShallow shallow) ⟨_, read⟩
    · rename_i t read
      have accepted : eval lookup depthLimit t ≠ .error .nestedTooDeeply :=
        eval_ne_nestedTooDeeply (low t read)
      split at refused
      · cases refused
      · cases refused
      · cases refused
      · cases refused
      · exact accepted ‹_›

end Texts

/-- Texts that are parsed, in parentheses, negated, with an operator between them or as the
arguments of a call come to what their own outcomes come to: a fault of the whole is the fault of
the first part that has one, else of the operator or the function. No more is asked of the whole
than not to be refused for its depth, as nothing is that nests no deeper than a condition may. -/
theorem evaluate_composes (lookup : String → Option Value) :
    (∀ text tokens, tokenize (stripWrapper text) = .ok tokens → IsShallow (tokens.map Token.kind) →
      (∀ t, parseTokens tokens = .ok t → t.height ≤ depthLimit) →
      ¬IsDeep (evaluate lookup text)) ∧
    (∀ e t, parse e = .ok t → ¬IsDeep (evaluate lookup ("(" ++ e ++ ")")) →
      evaluate lookup ("(" ++ e ++ ")") = evaluate lookup e) ∧
    (∀ e t, parse e = .ok t → ¬IsDeep (evaluate lookup ("!(" ++ e ++ ")")) →
      evaluate lookup ("!(" ++ e ++ ")") = do
        let x ← evaluate lookup e
        return .of ("!" ++ x.trace) (.bool (!asBool x.value))) ∧
    (∀ (op : Operator) left right t t', parse left = .ok t → parse right = .ok t' →
      let text := "(" ++ left ++ ") " ++ op.symbol ++ " (" ++ right ++ ")"
      ¬IsDeep (evaluate lookup text) →
      evaluate lookup text = do
        let x ← evaluate lookup left
        let y ← evaluate lookup right
        let b ← (op.apply x.value y.value).mapError (EvalFault.inText text)
        return .of (x.trace ++ " " ++ op.symbol ++ " " ++ y.trace) (.bool b)) ∧
    (∀ name es ts, IsName name → List.Forall₂ (fun e t => parse e = .ok t) es ts →
      let text := name ++ "(" ++ ",".intercalate es ++ ")"
      ¬IsDeep (evaluate lookup text) →
      evaluate lookup text = do
        let xs ← es.mapM (evaluate lookup)
        let v ← (call name (xs.map Outcome.value)).mapError Fault.call
        return .of (name ++ "(" ++ ", ".intercalate (xs.map Outcome.trace) ++ ")") v) := by
  have budget : depthLimit = 999 + 1 := rfl
  refine ⟨?_, ?_, ?_, ?_, ?_⟩
  · exact fun text tokens lexed shallow low => not_isDeep_of_isShallow lexed shallow low
  · intro e t read shallow
    exact evaluate_of_states (states_of_parse read).group shallow (carries_of_parse read le_rfl)
  · intro e t read shallow
    refine evaluate_of_states (states_of_parse read).negation shallow ?_
    rw [budget, eval]
    exact (carries_of_parse read (by decide)).bind fun x => carries_pure _
  · intro op left right t t' read read' text shallow
    have states := (states_of_parse read).operation (states_of_parse read') op
    refine evaluate_of_states states shallow ?_
    rw [budget, eval]
    refine (carries_of_parse read (by decide)).bind fun x => ?_
    refine (carries_of_parse read' (by decide)).bind fun y => ?_
    exact (carries_mapError _ _).bind fun b => carries_pure _
  · intro name es ts named read text shallow
    have states : List.Forall₂ States es ts := read.imp fun _ _ => states_of_parse
    refine evaluate_of_states (States.call named states) shallow ?_
    rw [budget, eval]
    refine Carries.bind (Carries.mapM ?_) fun xs => ?_
    · exact (read.imp fun _ _ parsed => carries_of_parse parsed (by decide)).flip
    · intro _
      cases Expr.call name (xs.map Outcome.value) <;> rfl

theorem isName_contains : IsName "contains" :=
  ⟨⟨'c', "ontains".toList, rfl, by decide, by decide⟩, by decide⟩

/-- The tokens of `contains(!a, b)`. -/
def tokensOfCall : List Token :=
  [⟨.ident "contains", 0⟩, ⟨.lparen, 8⟩, ⟨.not, 9⟩, ⟨.ident "a", 10⟩, ⟨.comma, 11⟩,
    ⟨.ident "b", 13⟩, ⟨.rparen, 14⟩, ⟨.eof, 15⟩]

set_option maxRecDepth 10000 in
theorem evaluate_composes_sample :
    parse "!a" = .ok (.not (.path "a")) ∧ parse " b" = .ok (.path "b") ∧
      ¬IsDeep (evaluate (fun _ => none) "contains(!a, b)") ∧
      evaluate (fun _ => none) "contains(!a, b)" = do
        let xs ← ["!a", " b"].mapM (evaluate fun _ => none)
        let v ← (call "contains" (xs.map Outcome.value)).mapError Fault.call
        return .of ("contains(" ++ ", ".intercalate (xs.map Outcome.trace) ++ ")") v := by
  obtain ⟨shallow, -, -, -, call⟩ := evaluate_composes fun _ => none
  have first : parse "!a" = .ok (.not (.path "a")) := by cbv
  have second : parse " b" = .ok (.path "b") := by cbv
  have lexed : tokenize (stripWrapper "contains(!a, b)") = .ok tokensOfCall := by cbv
  have read : parseTokens tokensOfCall = .ok (.call "contains" [.not (.path "a"), .path "b"]) := rfl
  have accepted : ¬IsDeep (evaluate (fun _ => none) "contains(!a, b)") := by
    refine shallow _ _ lexed (by decide) fun t same => ?_
    rw [read] at same
    cases same
    decide
  have whole := call "contains" ["!a", " b"] _ isName_contains (.cons first (.cons second .nil))
    accepted
  exact ⟨first, second, accepted, whole⟩

end Drydock.Expr
