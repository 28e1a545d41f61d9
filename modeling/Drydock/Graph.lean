import Drydock.Bindings
import Drydock.Text.Quoted
import Drydock.Text.Sorted

set_option autoImplicit false
set_option relaxedAutoImplicit false

/-!
Which job needs which, and an order that respects it. The order is that of a walk from each job in
turn to what it needs, in the order of declaration; meeting a job that is still being walked closes
a cycle.
-/

namespace Drydock

/-- The jobs that each job needs, in order and without repetition. -/
abbrev Graph := Bindings (List String)

/-- Why jobs cannot be ordered. -/
inductive GraphFault
  | duplicate (names : List String)
  | unknown (job dependency : String) (known : List String)
  | cycle (path : List String)
  deriving DecidableEq, Repr

/-- The wording of a fault. -/
def GraphFault.message : GraphFault → String
  | .duplicate names =>
    "Duplicate job names found: " ++ Text.quotedList (Text.sortedDistinct names)
  | .unknown job dependency known =>
    s!"Job '{job}' needs missing job '{dependency}'. Known jobs: " ++
      Text.quotedList (Text.sorted known)
  | .cycle path => "Dependency cycle detected: " ++ " -> ".intercalate path

namespace Graph

/-- Notes that a job needs another, if that is among the known jobs. -/
def noteNeed (known : List String) (job : String) (deps : List String) (dep : String) :
    Except GraphFault (List String) :=
  if dep ∉ known then .error (.unknown job dep known)
  else .ok (if dep ∈ deps then deps else deps ++ [dep])

/-- What a job needs, as declared, if all of it is among the known jobs. -/
def checkNeeds (known : List String) (job : String) (needs : List String) :
    Except GraphFault (List String) :=
  needs.foldlM (noteNeed known job) []

/-- A declared job with what it needs, if all of that is among the known jobs. -/
def checkJob (known : List String) (j : String × List String) :
    Except GraphFault (String × List String) :=
  (checkNeeds known j.1 j.2).map fun deps => (j.1, deps)

/-- The graph of declared jobs. -/
def build (jobs : List (String × List String)) : Except GraphFault Graph :=
  let names := jobs.map Prod.fst
  if names.Nodup then (jobs.mapM (checkJob names)).map Bindings.ofList
  else .error (.duplicate (names.filter fun n => 1 < names.count n))

/-- What a job needs. -/
def needs (g : Graph) (job : String) : List String :=
  (g.get? job).getD []

/-- A job on the way of a walk, and what it needs that was not looked at yet. -/
structure Frame where
  job : String
  pending : List String
  deriving DecidableEq, Repr

/-- The jobs on the way, from where the walk began; the frames stand in the opposite order. -/
def way (frames : List Frame) : List String :=
  (frames.map Frame.job).reverse

/-- How many jobs are neither done nor on the way. -/
def fresh (g : Graph) (frames : List Frame) (done : List String) : Nat :=
  g.keys.countP fun k => !(done.contains k || (way frames).contains k)

/-- How much is left to look at on the way. -/
def effort (frames : List Frame) : Nat :=
  frames.foldr (fun f n => f.pending.length + 1 + n) 0

private theorem countP_lt_countP {p q : String → Bool} {k : String} {keys : List String}
    (le : ∀ x, p x = true → q x = true) (member : k ∈ keys) (atP : p k = false)
    (atQ : q k = true) : keys.countP p < keys.countP q := by
  obtain ⟨before, after, rfl⟩ := List.append_of_mem member
  have hbefore : before.countP p ≤ before.countP q := List.countP_mono_left fun x _ => le x
  have hafter : after.countP p ≤ after.countP q := List.countP_mono_left fun x _ => le x
  simp only [List.countP_append, List.countP_cons, atP, atQ, if_true, Bool.false_eq_true, if_false]
  omega

theorem fresh_pop (g : Graph) (job : String) (outer : List Frame) (done : List String) :
    g.fresh outer (done ++ [job]) = g.fresh (⟨job, []⟩ :: outer) done := by
  unfold fresh way
  congr 1
  funext k
  rw [Bool.eq_iff_iff]
  simp only [List.map_cons, List.reverse_cons, List.contains_append]
  grind

theorem fresh_push_lt {g : Graph} {dep : String} {frames : List Frame} {done : List String}
    (pending : List String) (known : dep ∈ g.keys) (notDone : dep ∉ done)
    (notOnWay : dep ∉ way frames) :
    g.fresh (⟨dep, pending⟩ :: frames) done < g.fresh frames done := by
  apply countP_lt_countP _ known
  · simp [way]
  · simp [notDone, notOnWay]
  · intro k hk
    simp only [way, List.map_cons, List.reverse_cons, List.contains_append] at hk ⊢
    simp_all

/-- Walks on until nothing is on the way. What a job needs is looked at in order: what is done is
passed over, what is on the way closes a cycle, and anything else is walked to first. A job is done
when all of it was looked at. -/
def walk (g : Graph) : List Frame → List String → Except GraphFault (List String)
  | [], done => .ok done
  | ⟨job, []⟩ :: outer, done => walk g outer (done ++ [job])
  | ⟨job, dep :: rest⟩ :: outer, done =>
    let frames := ⟨job, rest⟩ :: outer
    if dep ∈ done then walk g frames done
    else if dep ∈ way frames then .error (.cycle ((way frames).dropWhile (· ≠ dep) ++ [dep]))
    else if dep ∈ g.keys then walk g (⟨dep, g.needs dep⟩ :: frames) done
    else .error (.unknown job dep g.keys)
termination_by frames done => (g.fresh frames done, effort frames)
decreasing_by
  · rw [fresh_pop]
    exact Prod.Lex.right _ (by simp [effort])
  · exact Prod.Lex.right _ (by simp [effort])
  · rename_i notDone notOnWay known
    exact Prod.Lex.left _ _ (fresh_push_lt _ known notDone notOnWay)

/-- Walks from a job, unless it is done. -/
def visit (g : Graph) (done : List String) (job : String) : Except GraphFault (List String) :=
  if job ∈ done then .ok done else g.walk [⟨job, g.needs job⟩] done

/-- The jobs, each after all it needs. -/
def order (g : Graph) : Except GraphFault (List String) :=
  g.keys.foldlM g.visit []

end Graph

end Drydock
