set_option autoImplicit false
set_option relaxedAutoImplicit false

/-!
Results that carry every problem met on the way. Reading goes on after a problem with a stand-in
value, so that one pass finds all problems; a result counts only if there are none.
-/

namespace Drydock.Schema

/-- The keys and indexes that lead to a place in a document. -/
abbrev Location := List String

/-- A value and the places that do not fit. -/
structure Checked (α : Type) where
  value : α
  problems : List Location

namespace Checked

variable {α : Type} {β : Type}

/-- A stand-in for what does not fit at a place. -/
def misfit [Inhabited α] (at_ : Location) : Checked α := ⟨default, [at_]⟩

instance : Monad Checked where
  pure a := ⟨a, []⟩
  bind x f := ⟨(f x.value).value, x.problems ++ (f x.value).problems⟩

/-- The value, or all places that do not fit. -/
def toExcept (x : Checked α) : Except (List Location) α :=
  if x.problems = [] then .ok x.value else .error x.problems

/-- A value, or the problem of a place. -/
def ofOption [Inhabited α] (at_ : Location) : Option α → Checked α
  | some a => ⟨a, []⟩
  | none => misfit at_

/-- Any problem inside counts as the problem of one place. -/
def collapse (at_ : Location) (x : Checked α) : Checked α :=
  ⟨x.value, if x.problems = [] then [] else [at_]⟩

/-- Reads the items of a list. -/
def all (read : α → Checked β) : List α → Checked (List β)
  | [] => pure []
  | a :: r => do
    let b ← read a
    let bs ← all read r
    return b :: bs

@[simp] theorem value_pure (a : α) : (pure a : Checked α).value = a := rfl

@[simp] theorem problems_pure (a : α) : (pure a : Checked α).problems = [] := rfl

@[simp] theorem value_bind (x : Checked α) (f : α → Checked β) :
    (x >>= f).value = (f x.value).value := rfl

@[simp] theorem problems_bind (x : Checked α) (f : α → Checked β) :
    (x >>= f).problems = x.problems ++ (f x.value).problems := rfl

end Checked

end Drydock.Schema
