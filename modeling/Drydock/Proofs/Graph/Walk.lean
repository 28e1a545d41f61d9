import Drydock.Proofs.Graph.Build
import Drydock.Proofs.Graph.Order
import Mathlib.Data.List.Nodup

set_option autoImplicit false
set_option relaxedAutoImplicit false

/-!
The walk that orders a graph. Every step keeps the jobs on the way linked by need, apart from one
another and from those that are done, and every need of theirs accounted for. Main statements: a walk
that ends has put each job after all it needs, and a walk that stops has found a cycle.
-/

namespace Drydock.Graph

variable {g : Graph} {frames outer : List Frame} {done order : List String} {job dep : String}
  {rest : List String}

/-- A job needs another. -/
def Needs (g : Graph) (job dep : String) : Prop :=
  dep ∈ g.needs job

/-- All that is needed is in the graph. -/
def IsComplete (g : Graph) : Prop :=
  ∀ job dep, g.Needs job dep → dep ∈ g.keys

theorem Declares.isComplete {jobs : List (String × List String)} (declared : Declares jobs g) :
    g.IsComplete := by
  intro job dep needed
  obtain ⟨needs, found, member⟩ := declared.needs_iff.mp needed
  exact declared.keys ▸ declared.known (job, needs) found dep member

/-- What a job on the way needs is done, or not looked at yet, or `next` on the way; and the job does
need what is not looked at and what is next. -/
def Accounted (g : Graph) (done : List String) : Option String → List Frame → Prop
  | _, [] => True
  | next, f :: outer =>
    (∀ dep ∈ f.pending, g.Needs f.job dep) ∧
      (∀ dep, next = some dep → g.Needs f.job dep) ∧
      (∀ dep, g.Needs f.job dep → dep ∈ done ∨ dep ∈ f.pending ∨ next = some dep) ∧
      Accounted g done (some f.job) outer

/-- What every step of a walk keeps. -/
structure Coherent (g : Graph) (frames : List Frame) (done : List String) : Prop where
  nodup : (done ++ way frames).Nodup
  known : ∀ job ∈ done ++ way frames, job ∈ g.keys
  inOrder : InOrder g.Needs done
  accounted : Accounted g done none frames

@[simp] theorem way_nil : way [] = [] := rfl

@[simp] theorem way_cons (f : Frame) : way (f :: outer) = way outer ++ [f.job] := by
  simp [way]

private theorem Accounted.mono {done done' : List String} {next : Option String}
    (accounted : Accounted g done next frames) (le : ∀ job ∈ done, job ∈ done') :
    Accounted g done' next frames := by
  induction frames generalizing next with
  | nil => trivial
  | cons f outer ih =>
    obtain ⟨pending, isNext, needs, others⟩ := accounted
    refine ⟨pending, isNext, ?_, ih others⟩
    intro dep needed
    exact (needs dep needed).imp_left (le dep)

private theorem Accounted.arrive (accounted : Accounted g done (some job) outer)
    (arrived : job ∈ done) : Accounted g done none outer := by
  cases outer with
  | nil => trivial
  | cons f outer =>
    obtain ⟨pending, isNext, needs, others⟩ := accounted
    refine ⟨pending, nofun, ?_, others⟩
    intro dep needed
    rcases needs dep needed with isDone | isPending | same
    · exact .inl isDone
    · exact .inr (.inl isPending)
    · exact .inl (Option.some.inj same ▸ arrived)

private theorem Accounted.linked {next : Option String} (accounted : Accounted g done next frames) :
    (way frames ++ next.toList).IsChain g.Needs := by
  induction frames generalizing next with
  | nil => cases next <;> simp
  | cons f outer ih =>
    obtain ⟨-, isNext, -, others⟩ := accounted
    have before : (way outer ++ [f.job]).IsChain g.Needs := ih others
    cases next with
    | none => simpa using before
    | some dep =>
      rw [way_cons, Option.toList_some, List.append_assoc, List.singleton_append]
      exact List.isChain_split.mpr ⟨before, List.isChain_pair.mpr (isNext dep rfl)⟩

namespace Coherent

theorem begin (member : job ∈ g.keys) (coherent : Coherent g [] done) (notDone : job ∉ done) :
    Coherent g [⟨job, g.needs job⟩] done := by
  obtain ⟨nodup, known, inOrder, -⟩ := coherent
  refine ⟨?_, ?_, inOrder, ?_⟩
  · rw [way_nil, List.append_nil] at nodup
    rw [way_cons, way_nil, List.nil_append, ← List.concat_eq_append]
    exact List.Nodup.concat notDone nodup
  · intro x found
    rcases List.mem_append.mp found with found | found
    · exact known x (List.mem_append_left _ found)
    · exact List.mem_singleton.mp found ▸ member
  · exact ⟨fun _ needed => needed, nofun, fun _ needed => .inr (.inl needed), trivial⟩

theorem pop (coherent : Coherent g (⟨job, []⟩ :: outer) done) : Coherent g outer (done ++ [job]) := by
  obtain ⟨nodup, known, inOrder, -, -, needs, others⟩ := coherent
  have same : List.Perm (done ++ way (⟨job, []⟩ :: outer)) (done ++ [job] ++ way outer) := by
    rw [way_cons, List.append_assoc]
    exact List.perm_append_comm.append_left done
  refine ⟨same.nodup_iff.mp nodup, ?_, ?_, ?_⟩
  · intro x found
    exact known x (same.mem_iff.mpr found)
  · apply inOrder.append_singleton
    intro dep needed
    rcases needs dep needed with isDone | isPending | isNext
    · exact isDone
    · cases isPending
    · cases isNext
  · refine (others.mono fun x found => List.mem_append_left _ found).arrive ?_
    exact List.mem_append_right _ List.mem_cons_self

theorem pass (coherent : Coherent g (⟨job, dep :: rest⟩ :: outer) done) (isDone : dep ∈ done) :
    Coherent g (⟨job, rest⟩ :: outer) done := by
  obtain ⟨nodup, known, inOrder, pending, isNext, needs, others⟩ := coherent
  refine ⟨nodup, known, inOrder, fun x found => pending x (List.mem_cons_of_mem _ found), isNext, ?_,
    others⟩
  intro x needed
  rcases needs x needed with found | found | found
  · exact .inl found
  · rcases List.mem_cons.mp found with rfl | found
    · exact .inl isDone
    · exact .inr (.inl found)
  · exact .inr (.inr found)

private theorem ahead (coherent : Coherent g (⟨job, dep :: rest⟩ :: outer) done) :
    Accounted g done (some dep) (⟨job, rest⟩ :: outer) := by
  obtain ⟨-, -, -, pending, -, needs, others⟩ := coherent
  refine ⟨fun x found => pending x (List.mem_cons_of_mem _ found), ?_, ?_, others⟩
  · rintro x same
    exact pending x (Option.some.inj same ▸ List.mem_cons_self)
  · intro x needed
    rcases needs x needed with found | found | found
    · exact .inl found
    · rcases List.mem_cons.mp found with rfl | found
      · exact .inr (.inr rfl)
      · exact .inr (.inl found)
    · cases found

theorem push (coherent : Coherent g (⟨job, dep :: rest⟩ :: outer) done) (notDone : dep ∉ done)
    (notOnWay : dep ∉ way (⟨job, rest⟩ :: outer)) (known : dep ∈ g.keys) :
    Coherent g (⟨dep, g.needs dep⟩ :: ⟨job, rest⟩ :: outer) done := by
  have fresh : dep ∉ done ++ way (⟨job, rest⟩ :: outer) := by
    simp only [List.mem_append, notDone, notOnWay, or_self, not_false_eq_true]
  refine ⟨?_, ?_, coherent.inOrder, ?_⟩
  · rw [way_cons, ← List.append_assoc, ← List.concat_eq_append]
    exact List.Nodup.concat fresh coherent.nodup
  · intro x found
    rw [way_cons, ← List.append_assoc, List.mem_append] at found
    rcases found with found | found
    · exact coherent.known x found
    · exact List.mem_singleton.mp found ▸ known
  · exact ⟨fun _ needed => needed, nofun, fun _ needed => .inr (.inl needed), coherent.ahead⟩

theorem cycle (coherent : Coherent g (⟨job, dep :: rest⟩ :: outer) done)
    (onWay : dep ∈ way (⟨job, rest⟩ :: outer)) :
    IsCycle g.Needs ((way (⟨job, rest⟩ :: outer)).dropWhile (· ≠ dep) ++ [dep]) := by
  have nodup : (way (⟨job, rest⟩ :: outer)).Nodup := (List.nodup_append.mp coherent.nodup).2.1
  have linked := coherent.ahead.linked
  generalize way (⟨job, rest⟩ :: outer) = jobs at onWay nodup linked
  obtain ⟨before, after, rfl, fresh⟩ := List.eq_append_cons_of_mem onWay
  have tail : (before ++ dep :: after).dropWhile (· ≠ dep) = dep :: after := by
    rw [List.dropWhile_append_of_pos, List.dropWhile_cons_of_neg (by simp)]
    intro x found
    have other : x ≠ dep := fun same => fresh (same ▸ found)
    simpa using other
  rw [tail]
  refine ⟨by simp, ?_, ?_, ?_⟩
  · rw [List.getLast?_concat, List.cons_append, List.head?_cons]
  · rw [List.dropLast_concat]
    exact (List.nodup_append.mp nodup).2.1
  · rw [Option.toList_some, List.append_assoc] at linked
    exact linked.right_of_append

end Coherent

theorem walk_eq_ok (coherent : Coherent g frames done) (ended : g.walk frames done = .ok order) :
    Coherent g [] order ∧ ∀ job ∈ done ++ way frames, job ∈ order := by
  fun_induction walk g frames done with
  | case1 done =>
    cases ended
    exact ⟨coherent, by simp⟩
  | case2 job outer done ih =>
    obtain ⟨settled, reached⟩ := ih coherent.pop ended
    refine ⟨settled, ?_⟩
    intro x found
    apply reached
    simp only [way_cons, List.mem_append] at found ⊢
    tauto
  | case3 job dep rest outer done frames isDone ih => exact ih (coherent.pass isDone) ended
  | case4 => cases ended
  | case5 job dep rest outer done frames notDone notOnWay known ih =>
    obtain ⟨settled, reached⟩ := ih (coherent.push notDone notOnWay known) ended
    refine ⟨settled, ?_⟩
    intro x found
    apply reached
    rw [way_cons, ← List.append_assoc]
    exact List.mem_append_left _ found
  | case6 => cases ended

theorem walk_eq_error {fault : GraphFault} (complete : g.IsComplete)
    (coherent : Coherent g frames done) (stopped : g.walk frames done = .error fault) :
    ∃ path, fault = .cycle path ∧ IsCycle g.Needs path := by
  fun_induction walk g frames done with
  | case1 => cases stopped
  | case2 job outer done ih => exact ih coherent.pop stopped
  | case3 job dep rest outer done frames isDone ih => exact ih (coherent.pass isDone) stopped
  | case4 job dep rest outer done frames notDone onWay =>
    exact ⟨_, (Except.error.inj stopped).symm, coherent.cycle onWay⟩
  | case5 job dep rest outer done frames notDone notOnWay known ih =>
    exact ih (coherent.push notDone notOnWay known) stopped
  | case6 job dep rest outer done frames notDone notOnWay unknown =>
    exact absurd (complete job dep (coherent.accounted.1 dep List.mem_cons_self)) unknown

theorem visit_eq_ok (coherent : Coherent g [] done) (member : job ∈ g.keys)
    (ended : g.visit done job = .ok order) :
    Coherent g [] order ∧ job ∈ order ∧ ∀ x ∈ done, x ∈ order := by
  unfold visit at ended
  split at ended
  · rename_i isDone
    cases ended
    exact ⟨coherent, isDone, fun _ found => found⟩
  · rename_i notDone
    obtain ⟨settled, reached⟩ := walk_eq_ok (coherent.begin member notDone) ended
    refine ⟨settled, reached job ?_, fun x found => reached x (List.mem_append_left _ found)⟩
    simp

theorem visit_eq_error {fault : GraphFault} (complete : g.IsComplete)
    (coherent : Coherent g [] done) (member : job ∈ g.keys)
    (stopped : g.visit done job = .error fault) :
    ∃ path, fault = .cycle path ∧ IsCycle g.Needs path := by
  unfold visit at stopped
  split at stopped
  · cases stopped
  · rename_i notDone
    exact walk_eq_error complete (coherent.begin member notDone) stopped

private theorem foldlM_visit_eq_ok {jobs : List String} (coherent : Coherent g [] done)
    (known : ∀ job ∈ jobs, job ∈ g.keys) (ended : jobs.foldlM g.visit done = .ok order) :
    Coherent g [] order ∧ (∀ job ∈ jobs, job ∈ order) ∧ ∀ job ∈ done, job ∈ order := by
  induction jobs generalizing done with
  | nil =>
    cases ended
    exact ⟨coherent, nofun, fun _ found => found⟩
  | cons job jobs ih =>
    rw [List.foldlM_cons, bind_eq_ok_iff] at ended
    obtain ⟨next, first, others⟩ := ended
    obtain ⟨between, here, kept⟩ := visit_eq_ok coherent (known job List.mem_cons_self) first
    obtain ⟨settled, visited, kept'⟩ :=
      ih between (fun x found => known x (List.mem_cons_of_mem _ found)) others
    refine ⟨settled, ?_, fun x found => kept' x (kept x found)⟩
    intro x found
    rcases List.mem_cons.mp found with rfl | found
    · exact kept' x here
    · exact visited x found

private theorem foldlM_visit_eq_error {fault : GraphFault} {jobs : List String}
    (complete : g.IsComplete) (coherent : Coherent g [] done) (known : ∀ job ∈ jobs, job ∈ g.keys)
    (stopped : jobs.foldlM g.visit done = .error fault) :
    ∃ path, fault = .cycle path ∧ IsCycle g.Needs path := by
  induction jobs generalizing done with
  | nil => cases stopped
  | cons job jobs ih =>
    have here := known job List.mem_cons_self
    rw [List.foldlM_cons, bind_eq_error_iff] at stopped
    rcases stopped with first | ⟨next, first, others⟩
    · exact visit_eq_error complete coherent here first
    · exact ih (visit_eq_ok coherent here first).1
        (fun x found => known x (List.mem_cons_of_mem _ found)) others

private theorem coherent_nil : Coherent g [] [] :=
  ⟨by simp, by simp, inOrder_nil, trivial⟩

theorem order_eq_ok (ordered : g.order = .ok order) : IsOrder g.Needs g.keys order := by
  obtain ⟨settled, visited, -⟩ := foldlM_visit_eq_ok coherent_nil (fun _ found => found) ordered
  obtain ⟨nodup, known, inOrder, -⟩ := settled
  rw [way_nil, List.append_nil] at nodup known
  exact ⟨nodup, fun job => ⟨known job, visited job⟩, inOrder⟩

theorem order_eq_error {fault : GraphFault} (complete : g.IsComplete)
    (stopped : g.order = .error fault) : ∃ path, fault = .cycle path ∧ IsCycle g.Needs path :=
  foldlM_visit_eq_error complete coherent_nil (fun _ found => found) stopped

end Drydock.Graph
