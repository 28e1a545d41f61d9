import Drydock.Proofs.Expr.Paths

set_option autoImplicit false
set_option relaxedAutoImplicit false

/-!
What the faults of a condition depend on. Main statement: a condition meets the same fault wherever
its paths are answered by values that are the same to comparisons by size and that can be written
alike, whatever else the values are.
-/

namespace Drydock.Expr

/-- Two values are the same to comparisons by size, and can be written both or neither. -/
structure SameSize (v v' : Value) : Prop where
  number : asFloat v = asFloat v'
  writable : v.isWritable = v'.isWritable

theorem sameSize_of_text {v v' : Value} (plain : v = .null ∨ ∃ s, v = .text s)
    (plain' : v' = .null ∨ ∃ s, v' = .text s) : SameSize v v' := by
  rcases plain with rfl | ⟨s, rfl⟩ <;> rcases plain' with rfl | ⟨s', rfl⟩ <;> exact ⟨rfl, rfl⟩

variable {lookup lookup' : String → Option Value}

/-- What a function gives is no number. -/
theorem asFloat_apply (f : Builtin) (args : List Value) : asFloat (f.apply args) = .ok 0 := by
  unfold Builtin.apply
  split <;> rfl

theorem call_abreast (name : String) {args args' : List Value}
    (count : args.length = args'.length) :
    Abreast (fun v v' => asFloat v = asFloat v') (call name args) (call name args') := by
  unfold call
  rw [count]
  split
  · exact .error _
  · split
    · exact .ok ((asFloat_apply _ _).trans (asFloat_apply _ _).symm)
    · exact .error _

theorem apply_abreast (op : Operator) {x x' y y' : Value} (left : asFloat x = asFloat x')
    (right : asFloat y = asFloat y') :
    Abreast (fun _ _ => True) (op.apply x y) (op.apply x' y') := by
  cases op with
  | eq | ne | and | or => exact .ok trivial
  | lt | gt | le | ge =>
    refine (Abreast.of_eq left).bind fun a a' _ => ?_
    exact (Abreast.of_eq right).bind fun b b' _ => .ok trivial

theorem eval_abreast {n : Nat} {t : Tree}
    (same : ∀ name ∈ t.paths, SameSize ((lookup name).getD .null) ((lookup' name).getD .null)) :
    Abreast (fun x x' => asFloat x.value = asFloat x'.value) (eval lookup n t)
      (eval lookup' n t) := by
  induction n generalizing t with
  | zero => exact .error _
  | succ n ih =>
    cases t with
    | literal v => exact .ok rfl
    | path name =>
      have sizes := same name List.mem_cons_self
      simp only [eval, sizes.writable]
      split
      · exact .ok sizes.number
      · exact .error _
    | not operand =>
      have first := ih (t := operand) same
      exact first.bind fun _ _ _ => .ok rfl
    | binary op left right =>
      have first := ih (t := left) fun name member => same name (List.mem_append_left _ member)
      have second := ih (t := right) fun name member => same name (List.mem_append_right _ member)
      refine first.bind fun x x' number => second.bind fun y y' number' => ?_
      exact (apply_abreast op number number').bind fun _ _ _ => .ok rfl
    | call name args =>
      have each : List.Forall₂ (fun t t' => Abreast (fun x x' => asFloat x.value = asFloat x'.value)
          (eval lookup n t) (eval lookup' n t')) args args := by
        refine List.forall₂_same.mpr fun t member => ih fun name found => ?_
        exact same name (Tree.mem_pathsOfAll.mpr ⟨t, member, found⟩)
      simp only [eval]
      refine (Abreast.mapM each).bind fun xs xs' others => ?_
      have count : (xs.map Outcome.value).length = (xs'.map Outcome.value).length := by
        simpa using others.length_eq
      have results := call_abreast name count
      revert results
      generalize call name (xs.map Outcome.value) = result
      generalize call name (xs'.map Outcome.value) = result'
      rintro (number | fault)
      · exact .ok number
      · exact .error _

/-- A condition meets the same fault where its paths have answers of the same size. -/
theorem evaluate_eq_error_iff {text : String} {fault : Fault}
    (same : ∀ name ∈ paths text,
      SameSize ((lookup name).getD .null) ((lookup' name).getD .null)) :
    evaluate lookup text = .error fault ↔ evaluate lookup' text = .error fault := by
  cases parsed : parse (stripWrapper text) with
  | error cause => simp only [evaluate, parsed]
  | ok tree =>
    rw [paths, parsed] at same
    have outcomes := eval_abreast (n := depthLimit) same
    simp only [evaluate, parsed]
    revert outcomes
    generalize eval lookup depthLimit tree = result
    generalize eval lookup' depthLimit tree = result'
    rintro (number | cause)
    · by_cases empty : stripWrapper text = "" <;> simp [empty]
    · rfl

end Drydock.Expr
