import Drydock.Expr.Eval
import Drydock.Proofs.Traversal

set_option autoImplicit false
set_option relaxedAutoImplicit false

/-!
The paths that a condition reads. Main statement: the outcome of a condition, its trace and its
faults included, depends on nothing but the answers for its paths.
-/

namespace Drydock.Expr

mutual

/-- The paths in a tree. -/
def Tree.paths : Tree → List String
  | .literal _ => []
  | .path name => [name]
  | .not operand => operand.paths
  | .binary _ left right => left.paths ++ right.paths
  | .call _ args => Tree.pathsOfAll args
termination_by structural t => t

/-- The paths in several trees. -/
def Tree.pathsOfAll : List Tree → List String
  | [] => []
  | t :: r => t.paths ++ Tree.pathsOfAll r
termination_by structural ts => ts

end

/-- The paths in the condition that a text writes; a text that writes none has no paths. -/
def paths (text : String) : List String :=
  match parse (stripWrapper text) with
  | .ok tree => tree.paths
  | .error _ => []

theorem Tree.mem_pathsOfAll {args : List Tree} {name : String} :
    name ∈ Tree.pathsOfAll args ↔ ∃ t ∈ args, name ∈ t.paths := by
  induction args with
  | nil => simp [Tree.pathsOfAll]
  | cons t r ih => simp [Tree.pathsOfAll, ih]

variable {lookup lookup' : String → Option Value}

theorem eval_congr {n : Nat} {t : Tree} (agree : ∀ name ∈ t.paths, lookup name = lookup' name) :
    eval lookup n t = eval lookup' n t := by
  induction n generalizing t with
  | zero => rfl
  | succ n ih =>
    cases t with
    | literal v => rfl
    | path name =>
      have same : lookup name = lookup' name := agree name List.mem_cons_self
      simp only [eval, same]
    | not operand =>
      have same : eval lookup n operand = eval lookup' n operand := ih agree
      simp only [eval, same]
    | binary op left right =>
      have first : eval lookup n left = eval lookup' n left :=
        ih fun name member => agree name (List.mem_append_left _ member)
      have second : eval lookup n right = eval lookup' n right :=
        ih fun name member => agree name (List.mem_append_right _ member)
      simp only [eval, first, second]
    | call name args =>
      have same : args.mapM (eval lookup n) = args.mapM (eval lookup' n) := by
        refine mapM_congr fun t member => ih fun name found => ?_
        exact agree name (Tree.mem_pathsOfAll.mpr ⟨t, member, found⟩)
      simp only [eval, same]

theorem evaluate_congr {text : String} (agree : ∀ name ∈ paths text, lookup name = lookup' name) :
    evaluate lookup text = evaluate lookup' text := by
  cases parsed : parse (stripWrapper text) with
  | error fault => simp only [evaluate, parsed]
  | ok tree =>
    rw [paths, parsed] at agree
    have same : eval lookup depthLimit tree = eval lookup' depthLimit tree := eval_congr agree
    simp only [evaluate, parsed, same]

end Drydock.Expr
