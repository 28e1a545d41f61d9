import Drydock.Context
import Drydock.Proofs.Bindings
import Drydock.Proofs.Expr.Paths
import Mathlib

set_option autoImplicit false
set_option relaxedAutoImplicit false

/-!
The data of conditions entry by entry. A path leads to an entry by its segments, so that spellings
that differ in empty segments lead to the same one. Main statements: a path that does not lead to an
entry has the same answer whatever becomes of the entry, and a condition whose paths have the same
answers has the same outcome.
-/

namespace Drydock

/-- Two values, each of which may be missing, are the same but for what stands under some keys, one
below the other. -/
inductive Value.DifferAt : List Scalar → Option Value → Option Value → Prop
  | here (v v' : Option Value) : DifferAt [] v v'
  | inside {key : Scalar} {keys : List Scalar} {entries entries' : List (Scalar × Value)}
      (others : ∀ k, key.same k = false → valueAt? k entries = valueAt? k entries')
      (under : DifferAt keys (valueAt? key entries) (valueAt? key entries')) :
      DifferAt (key :: keys) (some (.map entries)) (some (.map entries'))

namespace Context

/-- An entry of the data: a variable, a secret, a value of the matrix, what is recorded of a job or
of a step, or what stands in the payload of the event under keys, one below the other. -/
inductive Entry
  | env (name : String)
  | secret (name : String)
  | matrix (key : String)
  | job (name : String)
  | step (id : String)
  | event (keys : List Scalar)

/-- The segments of a path lead to an entry. In the payload they lead to what they name, to all that
stands in it and to all that it stands in. -/
inductive Leads : List String → Entry → Prop
  | env (name : String) : Leads ["env", name] (.env name)
  | secret (name : String) : Leads ["secrets", name] (.secret name)
  | matrix (key : String) : Leads ["matrix", key] (.matrix key)
  | jobStatus (name : String) : Leads ["jobs", name, "status"] (.job name)
  | jobOutput (name output : String) : Leads ["jobs", name, "outputs", output] (.job name)
  | stepOutcome (id : String) : Leads ["steps", id, "outcome"] (.step id)
  | stepOutput (id output : String) : Leads ["steps", id, "outputs", output] (.step id)
  | event {names : List String} {keys : List Scalar}
      (meets : names.map .text <+: keys ∨ keys <+: names.map .text) :
      Leads ("github" :: "event" :: names) (.event keys)

/-- The second data are the first with one entry written, overwritten or taken out. -/
inductive Changed : Entry → Context → Context → Prop
  | env {c : Context} {name : String} {env : Bindings String}
      (others : ∀ k ≠ name, env.get? k = c.env.get? k) : Changed (.env name) c { c with env := env }
  | secret {c : Context} {name : String} {secrets : Bindings String}
      (others : ∀ k ≠ name, secrets.get? k = c.secrets.get? k) :
      Changed (.secret name) c { c with secrets := secrets }
  | matrix {c : Context} {key : String} {matrix : Bindings Value}
      (others : ∀ k ≠ key, matrix.get? k = c.matrix.get? k) :
      Changed (.matrix key) c { c with matrix := matrix }
  | job (c : Context) (name status : String) (outputs : Bindings String) :
      Changed (.job name) c (c.recordJob name status outputs)
  | step (c : Context) (id outcome : String) (outputs : Bindings String) :
      Changed (.step id) c (c.recordStep id outcome outputs)
  | event {c : Context} {keys : List Scalar} {payload : Value}
      (others : Value.DifferAt keys (some c.github.event) (some payload)) :
      Changed (.event keys) c { c with github := { c.github with event := payload } }

/-- The second data come from the first by changes of entries one after another. -/
inductive Rewritten : List Entry → Context → Context → Prop
  | nil (c : Context) : Rewritten [] c c
  | cons {e : Entry} {es : List Entry} {c d c' : Context} (first : Changed e c d)
      (others : Rewritten es d c') : Rewritten (e :: es) c c'

end Context

section Payload

theorem Scalar.same_text {k : Scalar} {name : String} (apart : k ≠ .text name) :
    k.same (.text name) = false := by
  cases k with
  | text s =>
    have other : s ≠ name := fun same => apart (congrArg _ same)
    simpa [same, number?] using other
  | float x =>
    simp only [same, number?]
    cases Number.exactInt? x <;> rfl
  | null | bool | int | bytes | date | moment => rfl

theorem Trigger.walk_cons (entries : List (Scalar × Value)) (name : String) (names : List String) :
    walk (.map entries) (name :: names) =
      (Value.valueAt? (.text name) entries).bind fun v => walk v names := by
  simp only [walk, Value.field?]
  cases Value.valueAt? (.text name) entries <;> rfl

/-- A walk that neither ends around a place nor goes through it does not see what stands there. -/
theorem Trigger.walk_of_differAt {keys : List Scalar} {v v' : Option Value}
    (others : Value.DifferAt keys v v') {names : List String} (above : ¬names.map .text <+: keys)
    (below : ¬keys <+: names.map .text) :
    (v.bind fun v => walk v names) = v'.bind fun v => walk v names := by
  induction others generalizing names with
  | here => exact absurd List.nil_prefix below
  | @inside key keys entries entries' others _ ih =>
    cases names with
    | nil => exact absurd List.nil_prefix above
    | cons name names =>
      simp only [Option.bind_some, walk_cons]
      by_cases same : key = .text name
      · subst same
        refine ih (fun shorter => above ?_) fun longer => below ?_
        · exact List.cons_prefix_cons.mpr ⟨rfl, shorter⟩
        · exact List.cons_prefix_cons.mpr ⟨rfl, longer⟩
      · rw [others _ (Scalar.same_text same)]

end Payload

namespace Context

variable {c c' : Context} {e : Entry} {es : List Entry} {segments : List String}

/-- Past the status and the outputs nothing is found in a record. -/
theorem lookup_eq_none {done : Completion} {statusName : String} {r : List String}
    (status : r ≠ [statusName]) (outputs : ∀ output, r ≠ ["outputs", output]) :
    done.lookup statusName r = none := by
  unfold Completion.lookup
  split
  · rename_i name
    have other : name ≠ statusName := fun same => status (same ▸ rfl)
    rw [if_neg other]
  · exact absurd rfl (outputs _)
  · rfl

/-- A record that is written is seen under the status and the outputs of its name only. -/
theorem bind_lookup_insert {records : Bindings Completion} {name written statusName : String}
    {done : Completion} {r : List String}
    (aside : name = written → r ≠ [statusName] ∧ ∀ output, r ≠ ["outputs", output]) :
    (((records.insert written done).get? name).bind fun done => done.lookup statusName r) =
      (records.get? name).bind fun done => done.lookup statusName r := by
  rw [Bindings.get?_insert]
  split
  · rename_i same
    obtain ⟨status, outputs⟩ := aside same
    rw [Option.bind_some, lookup_eq_none status outputs]
    cases records.get? name with
    | none => rfl
    | some old => exact (lookup_eq_none status outputs).symm
  · rfl

theorem lookupSegments_of_changed (changed : Changed e c c') (aside : ¬Leads segments e) :
    c'.lookupSegments segments = c.lookupSegments segments := by
  unfold lookupSegments
  cases changed with
  | env others =>
    split
    case h_2 name => rw [others name fun same => aside (same ▸ .env name)]
    all_goals rfl
  | secret others =>
    split
    case h_3 name => rw [others name fun same => aside (same ▸ .secret name)]
    all_goals rfl
  | matrix others =>
    split
    case h_4 key => rw [others key fun same => aside (same ▸ .matrix key)]
    all_goals rfl
  | job name status outputs =>
    split
    case h_5 job r =>
      refine bind_lookup_insert fun same => ⟨?_, fun output => ?_⟩
      · rintro rfl
        exact aside (same ▸ .jobStatus job)
      · rintro rfl
        exact aside (same ▸ .jobOutput job output)
    all_goals rfl
  | step id outcome outputs =>
    split
    case h_6 step r =>
      refine bind_lookup_insert fun same => ⟨?_, fun output => ?_⟩
      · rintro rfl
        exact aside (same ▸ .stepOutcome step)
      · rintro rfl
        exact aside (same ▸ .stepOutput step output)
    all_goals rfl
  | event others =>
    split
    case h_1 r =>
      unfold Trigger.lookup
      split
      · refine (Trigger.walk_of_differAt others (fun above => aside ?_) fun below => aside ?_).symm
        · exact .event (.inl above)
        · exact .event (.inr below)
      all_goals rfl
    all_goals rfl

theorem lookupSegments_of_rewritten (rewritten : Rewritten es c c')
    (aside : ∀ e ∈ es, ¬Leads segments e) :
    c'.lookupSegments segments = c.lookupSegments segments := by
  induction rewritten with
  | nil => rfl
  | cons first _ ih =>
    obtain ⟨here, rest⟩ := List.forall_mem_cons.mp aside
    exact (ih rest).trans (lookupSegments_of_changed first here)

end Context

namespace Expr

/-- What a condition comes to, be it a value with its trace or a fault, depends on the answers for
its paths alone, so that no change of entries that none of its paths leads to makes a difference. -/
theorem evaluate_depends_on_answers (text : String) (c c' : Context) :
    ((∀ path ∈ paths text, c.lookup path = c'.lookup path) →
      evaluate c.lookup text = evaluate c'.lookup text) ∧
    ∀ es, Context.Rewritten es c c' →
      (∀ e ∈ es, ∀ path ∈ paths text, ¬Context.Leads (Context.segments path) e) →
      evaluate c.lookup text = evaluate c'.lookup text := by
  refine ⟨evaluate_congr, fun es rewritten aside => evaluate_congr fun path member => ?_⟩
  have foreign : ∀ e ∈ es, ¬Context.Leads (Context.segments path) e :=
    fun e inside => aside e inside path member
  exact (Context.lookupSegments_of_rewritten rewritten foreign).symm

/-- Data of a pull request, before anything has run. -/
def pulled : Context :=
  { Context.empty with
    github := { Trigger.empty with
      event := .ofBindings [("number", .int 1), ("title", .text "x")] }
    env := .ofList [("A", "x")] }

/-- The same data with a job recorded, a variable added and another number. -/
def pulledLater : Context :=
  { pulled with
    github := { Trigger.empty with
      event := .ofBindings [("number", .int 2), ("title", .text "x")] }
    env := pulled.env.insert "B" "y"
    jobs := pulled.jobs.insert "test" ⟨"failure", ∅⟩ }

set_option maxRecDepth 10000 in
theorem evaluate_depends_on_answers_sample :
    paths "env..A == github.event.title" = ["env..A", "github.event.title"] ∧
      Context.Rewritten [.job "test", .env "B", .event [.text "number"]] pulled pulledLater ∧
      evaluate pulled.lookup "env..A == github.event.title" =
        evaluate pulledLater.lookup "env..A == github.event.title" := by
  have read : paths "env..A == github.event.title" = ["env..A", "github.event.title"] := by
    decide +kernel
  have rewritten :
      Context.Rewritten [.job "test", .env "B", .event [.text "number"]] pulled pulledLater := by
    refine .cons (.job _ "test" "failure" ∅) (.cons (.env ?_) (.cons (.event ?_) (.nil _)))
    · intro k other
      exact (Bindings.get?_insert _ "B" k "y").trans (if_neg other)
    · refine .inside (fun k other => ?_) (.here _ _)
      simp [Value.valueAt?, other]
  have first : Context.segments "env..A" = ["env", "A"] := by decide +kernel
  have second : Context.segments "github.event.title" = ["github", "event", "title"] := by
    decide +kernel
  refine ⟨read, rewritten, (evaluate_depends_on_answers _ _ _).2 _ rewritten ?_⟩
  intro e changed path inside leads
  rw [read] at inside
  rcases List.mem_pair.mp inside with rfl | rfl
  · rw [first] at leads
    generalize whole : ["env", "A"] = parts at leads
    cases leads <;> simp_all
  · rw [second] at leads
    generalize whole : ["github", "event", "title"] = parts at leads
    cases leads
    case event names keys meets =>
      obtain rfl : ["title"] = names := by simpa using whole
      obtain rfl : keys = [.text "number"] := by simpa using changed
      simp at meets
    all_goals simp_all

end Expr

end Drydock
