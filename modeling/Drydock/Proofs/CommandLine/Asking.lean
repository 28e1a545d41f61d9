import Drydock.CommandLine.Response

set_option autoImplicit false
set_option relaxedAutoImplicit false

/-!
Arguments that ask for something. Main statement: what is asked for is answered as its command
answers it, and what ends a command without an answer ends the program.
-/

namespace Drydock.CommandLine.Surroundings

/-- The arguments are understood as a request whose path can be looked at and is of the right
kind. -/
structure Asks (s : Surroundings) (args : List String) (debug : Bool) (r : Request) : Prop where
  understood : ∃ i, Invocation.ofArguments? args = some i ∧ i.debug = debug ∧
    i.request? FileTree.workflowDirectory = some r
  legal : ∀ path, r.path? = some path → path.toList.contains (Char.ofNat 0) = false
  admitted : s.admits r = true

variable {s : Surroundings} {args : List String} {debug : Bool} {r : Request}

theorem Asks.respond_eq (asks : s.Asks args debug r) :
    s.respond args =
      match s.answer debug r with
      | .ok response => .ok response
      | .error (.answer response) => .ok response
      | .error (.escape e) => .error e := by
  obtain ⟨i, read, rfl, request⟩ := asks.understood
  have legal : (r.path?.any fun text => text.toList.contains (Char.ofNat 0)) = false := by
    cases found : r.path? with
    | none => rfl
    | some path => exact asks.legal path found
  simp only [respond, read, request, legal, asks.admitted]
  rfl

/-- Surroundings in which only the files matter: the checkout is fine, and so is all that the engine
is asked for. -/
def still (files : FileTree) : Surroundings where
  files := files
  currentDir := Path.parse "/work"
  environ := ∅
  checkout _ := .ok ⟨"refs/heads/main", "0123456789abcdef", "octocat", "octo/repo", "/work"⟩
  engine := ⟨fun _ _ => none, fun _ => "container", fun _ _ => .idle⟩
  clone _ := .ok ()
  scratch := .ok "/files"

end Drydock.CommandLine.Surroundings
