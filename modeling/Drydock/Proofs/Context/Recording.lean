import Drydock.Proofs.Context
import Drydock.Proofs.Text.Pieces
import Mathlib

set_option autoImplicit false
set_option relaxedAutoImplicit false

/-!
The data of conditions as a store that is written by records and read by paths. Main statements: which
paths are found, and what is found there; a path to the status or to an output of a job or a step leads
into its last record; and no record is seen by a path that does not begin with its part and its name.
-/

namespace Drydock

/-- Going down maps by text keys, one below the other, leads from a value to a value. -/
inductive Trigger.Reaches : Value → List String → Value → Prop
  | here (v : Value) : Reaches v [] v
  | inside {entries : List (Scalar × Value)} {name : String} {names : List String} {v v' : Value}
      (field : Value.field? name entries = some v) (under : Reaches v names v') :
      Reaches (.map entries) (name :: names) v'

namespace Context

open Text (splitAtChar)

/-- What is recorded in the course of a run: how a job ended, or how a step did. -/
inductive Subject
  | job
  | step
  deriving DecidableEq, Repr

/-- The part of the data that holds the records. -/
def Subject.part : Subject → String
  | .job => "jobs"
  | .step => "steps"

/-- What the status is called there. -/
def Subject.statusName : Subject → String
  | .job => "status"
  | .step => "outcome"

/-- The path to the status of a job or a step. -/
def Subject.statusPath (s : Subject) (name : String) : String :=
  s.part ++ "." ++ name ++ "." ++ s.statusName

/-- The path to an output of a job or a step. -/
def Subject.outputPath (s : Subject) (name key : String) : String :=
  s.part ++ "." ++ name ++ ".outputs." ++ key

/-- How a job or a step ended, to be recorded under its name. -/
structure Record where
  subject : Subject
  name : String
  completion : Completion
  deriving DecidableEq, Repr

/-- The records are of the same job or of the same step. -/
def Record.Matches (r r' : Record) : Prop :=
  r.subject = r'.subject ∧ r.name = r'.name

instance (r r' : Record) : Decidable (r.Matches r') :=
  inferInstanceAs (Decidable (_ ∧ _))

/-- The data with one more record. -/
def record (c : Context) (r : Record) : Context :=
  match r.subject with
  | .job => c.recordJob r.name r.completion.status r.completion.outputs
  | .step => c.recordStep r.name r.completion.status r.completion.outputs

/-- The data with records written one after another. -/
def recordAll (c : Context) (rs : List Record) : Context :=
  rs.foldl record c

/-- What is recorded under a name. -/
def completion? (c : Context) (s : Subject) (name : String) : Option Completion :=
  match s with
  | .job => c.jobs.get? name
  | .step => c.steps.get? name

/-- A name that is a segment of a path by itself. -/
structure IsSegment (name : String) : Prop where
  nonempty : name ≠ ""
  noPoint : '.' ∉ name.toList

instance (name : String) : Decidable (IsSegment name) :=
  decidable_of_iff (name ≠ "" ∧ '.' ∉ name.toList)
    ⟨fun marks => ⟨marks.1, marks.2⟩, fun solid => ⟨solid.nonempty, solid.noPoint⟩⟩

/-- What stands in the data under segments. -/
inductive Found (c : Context) : List String → Value → Prop
  | field {name text : String} (given : (name, text) ∈ c.github.fields) :
      Found c ["github", name] (.text text)
  | event {names : List String} {v : Value} (reaches : Trigger.Reaches c.github.event names v) :
      Found c ("github" :: "event" :: names) v
  | env {name text : String} (given : c.env.get? name = some text) : Found c ["env", name] (.text text)
  | secret {name text : String} (given : c.secrets.get? name = some text) :
      Found c ["secrets", name] (.text text)
  | matrix {key : String} {v : Value} (given : c.matrix.get? key = some v) : Found c ["matrix", key] v
  | status (s : Subject) {name : String} {done : Completion} (recorded : c.completion? s name = some done) :
      Found c [s.part, name, s.statusName] (.text done.status)
  | output (s : Subject) {name key text : String} {done : Completion}
      (recorded : c.completion? s name = some done) (given : done.outputs.get? key = some text) :
      Found c [s.part, name, "outputs", key] (.text text)

variable {c : Context} {r : Record} {rs before after : List Record} {s : Subject} {name key : String}
  {names : List String} {v v' : Value}

section Segments

theorem segments_of_pieces {path : String}
    (pieces : splitAtChar '.' path.toList = names.map String.toList) (solid : ∀ n ∈ names, n ≠ "") :
    segments path = names := by
  have kept : (names.map String.toList).filter (· ≠ []) = names.map String.toList := by
    refine List.filter_eq_self.mpr fun cs member => ?_
    obtain ⟨n, inside, rfl⟩ := List.mem_map.mp member
    simpa using solid n inside
  rw [segments, pieces, kept]
  simp

theorem segments_statusPath (s : Subject) (solid : IsSegment name) :
    segments (s.statusPath name) = [s.part, name, s.statusName] := by
  have part : '.' ∉ s.part.toList := by cases s <;> decide
  have status : '.' ∉ s.statusName.toList := by cases s <;> decide
  refine segments_of_pieces ?_ ?_
  · have spelled : (s.statusPath name).toList =
        s.part.toList ++ '.' :: (name.toList ++ '.' :: s.statusName.toList) := by
      simp [Subject.statusPath]
    rw [spelled, Text.splitAtChar_append part, Text.splitAtChar_append solid.noPoint,
      Text.splitAtChar_of_notMem status]
    rfl
  · have filled : s.part ≠ "" ∧ s.statusName ≠ "" := by cases s <;> decide
    simp [filled, solid.nonempty]

theorem segments_outputPath (s : Subject) (solid : IsSegment name) (solid' : IsSegment key) :
    segments (s.outputPath name key) = [s.part, name, "outputs", key] := by
  have part : '.' ∉ s.part.toList := by cases s <;> decide
  refine segments_of_pieces ?_ ?_
  · have spelled : (s.outputPath name key).toList =
        s.part.toList ++ '.' :: (name.toList ++ '.' :: ("outputs".toList ++ '.' :: key.toList)) := by
      simp [Subject.outputPath]
    rw [spelled, Text.splitAtChar_append part, Text.splitAtChar_append solid.noPoint,
      Text.splitAtChar_append (by decide), Text.splitAtChar_of_notMem solid'.noPoint]
    rfl
  · have filled : s.part ≠ "" := by cases s <;> decide
    simp [filled, solid.nonempty, solid'.nonempty]

end Segments

section Answers

theorem walk_eq_some_iff : Trigger.walk v names = some v' ↔ Trigger.Reaches v names v' := by
  constructor
  · intro found
    induction names generalizing v with
    | nil =>
      rw [Trigger.walk] at found
      exact Option.some.inj found ▸ .here v
    | cons name names ih =>
      cases v with
      | map entries =>
        rw [Trigger.walk_cons, Option.bind_eq_some_iff] at found
        obtain ⟨inner, field, under⟩ := found
        exact .inside field (ih under)
      | _ => simp [Trigger.walk] at found
  · intro reaches
    induction reaches with
    | here => rw [Trigger.walk]
    | inside field _ ih =>
      rw [Trigger.walk_cons]
      exact Option.bind_eq_some_iff.mpr ⟨_, field, ih⟩

theorem lookupSegments_recorded (c : Context) (s : Subject) (name : String) (rest : List String) :
    c.lookupSegments (s.part :: name :: rest) =
      (c.completion? s name).bind fun done => done.lookup s.statusName rest := by
  cases s <;> rfl

theorem nodup_fields (t : Trigger) : (t.fields.map Prod.fst).Nodup := by
  simp [Trigger.fields]

theorem lookup_of_mem_fields {t : Trigger} {text : String} (given : (name, text) ∈ t.fields) :
    t.lookup [name] = some (.text text) := by
  have other : name ≠ "event" := by
    rintro rfl
    simp [Trigger.fields] at given
  rw [Trigger.lookup, (valueOf?_eq_some_iff (nodup_fields t)).mpr given, Option.map_some]
  simp [other]

theorem found_of_trigger {rest : List String} (answer : c.github.lookup rest = some v) :
    c.Found ("github" :: rest) v := by
  unfold Trigger.lookup at answer
  split at answer
  · exact .event (walk_eq_some_iff.mp answer)
  · obtain ⟨text, given, rfl⟩ := Option.map_eq_some_iff.mp answer
    exact .field ((valueOf?_eq_some_iff (nodup_fields c.github)).mp given)
  · cases answer

theorem found_of_completion {done : Completion} {rest : List String}
    (recorded : c.completion? s name = some done) (answer : done.lookup s.statusName rest = some v) :
    c.Found (s.part :: name :: rest) v := by
  unfold Completion.lookup at answer
  split at answer
  · split at answer
    · rename_i same
      cases answer
      exact same ▸ .status s recorded
    · cases answer
  · obtain ⟨text, given, rfl⟩ := Option.map_eq_some_iff.mp answer
    exact .output s recorded given
  · cases answer

/-- A path is answered by what stands under its segments, and by nothing else. -/
theorem lookupSegments_eq_some_iff : c.lookupSegments names = some v ↔ c.Found names v := by
  constructor
  · intro answer
    unfold lookupSegments at answer
    split at answer
    · exact found_of_trigger answer
    · obtain ⟨text, given, rfl⟩ := Option.map_eq_some_iff.mp answer
      exact .env given
    · obtain ⟨text, given, rfl⟩ := Option.map_eq_some_iff.mp answer
      exact .secret given
    · exact .matrix answer
    · obtain ⟨done, recorded, answer⟩ := Option.bind_eq_some_iff.mp answer
      exact found_of_completion (s := .job) recorded answer
    · obtain ⟨done, recorded, answer⟩ := Option.bind_eq_some_iff.mp answer
      exact found_of_completion (s := .step) recorded answer
    · cases answer
  · intro found
    cases found with
    | field given => exact lookup_of_mem_fields given
    | event reaches => exact walk_eq_some_iff.mpr reaches
    | env given => simp only [lookupSegments, given, Option.map_some]
    | secret given => simp only [lookupSegments, given, Option.map_some]
    | matrix given => simp only [lookupSegments, given]
    | status s recorded =>
      rw [lookupSegments_recorded, recorded, Option.bind_some, Completion.lookup, if_pos rfl]
    | output s recorded given =>
      rw [lookupSegments_recorded, recorded, Option.bind_some, Completion.lookup, given, Option.map_some]

end Answers

section Records

theorem completion?_record (c : Context) (r : Record) (s : Subject) (name : String) :
    (c.record r).completion? s name =
      if r.subject = s ∧ r.name = name then some r.completion else c.completion? s name := by
  obtain ⟨subject, written, done⟩ := r
  cases subject <;> cases s <;>
    simp [record, completion?, recordJob, recordStep, Bindings.get?_insert, eq_comm]

theorem completion?_recordAll_of_others (others : ∀ r ∈ rs, ¬(r.subject = s ∧ r.name = name)) :
    (c.recordAll rs).completion? s name = c.completion? s name := by
  induction rs generalizing c with
  | nil => rfl
  | cons r rs ih =>
    obtain ⟨first, others⟩ := List.forall_mem_cons.mp others
    exact (ih others).trans ((completion?_record c r s name).trans (if_neg first))

/-- What is recorded last under a name is what is recorded there. -/
theorem completion?_recordAll (c : Context) (before : List Record)
    (last : ∀ later ∈ after, ¬later.Matches r) :
    (c.recordAll (before ++ r :: after)).completion? r.subject r.name = some r.completion := by
  rw [recordAll, List.foldl_append, List.foldl_cons]
  exact (completion?_recordAll_of_others last).trans
    ((completion?_record _ r r.subject r.name).trans (if_pos ⟨rfl, rfl⟩))

theorem changed_record (c : Context) (r : Record) : ∃ e, Changed e c (c.record r) ∧
    ∀ names, Leads names e → [r.subject.part, r.name] <+: names := by
  obtain ⟨subject, name, done⟩ := r
  cases subject with
  | job =>
    refine ⟨.job name, .job c name _ _, fun names leads => ?_⟩
    cases leads with
    | jobStatus => exact ⟨_, rfl⟩
    | jobOutput => exact ⟨_, rfl⟩
  | step =>
    refine ⟨.step name, .step c name _ _, fun names leads => ?_⟩
    cases leads with
    | stepOutcome => exact ⟨_, rfl⟩
    | stepOutput => exact ⟨_, rfl⟩

theorem lookupSegments_recordAll (aside : ∀ r ∈ rs, ¬[r.subject.part, r.name] <+: names) :
    (c.recordAll rs).lookupSegments names = c.lookupSegments names := by
  induction rs generalizing c with
  | nil => rfl
  | cons r rs ih =>
    obtain ⟨first, others⟩ := List.forall_mem_cons.mp aside
    obtain ⟨e, changed, within⟩ := changed_record c r
    exact (ih others).trans (lookupSegments_of_changed changed fun leads => first (within names leads))

end Records

/-- However many records are written one after another: the path to a status leads to the status of the
last record of its name, and the path to an output to that output there, or nowhere if there is none; a
path that begins with the part and the name of no record has the answer that it had; and each path has
an answer, which is the one value that stands under its segments, or that there is none. -/
theorem lookup_recordAll (c : Context) (rs : List Record) :
    (∀ before r after, rs = before ++ r :: after → (∀ later ∈ after, ¬later.Matches r) →
      IsSegment r.name →
      (c.recordAll rs).lookup (r.subject.statusPath r.name) = some (.text r.completion.status) ∧
      ∀ key, IsSegment key → (c.recordAll rs).lookup (r.subject.outputPath r.name key) =
        (r.completion.outputs.get? key).map .text) ∧
    (∀ path, (∀ r ∈ rs, ¬[r.subject.part, r.name] <+: segments path) →
      (c.recordAll rs).lookup path = c.lookup path) ∧
    ∀ path, (∃ v, (c.recordAll rs).lookup path = some v ∧ (c.recordAll rs).Found (segments path) v) ∨
      (c.recordAll rs).lookup path = none ∧ ∀ v, ¬(c.recordAll rs).Found (segments path) v := by
  refine ⟨?_, fun path aside => lookupSegments_recordAll aside, fun path => ?_⟩
  · rintro before r after rfl last solid
    have recorded := completion?_recordAll c before last
    refine ⟨?_, fun key solid' => ?_⟩
    · rw [lookup, segments_statusPath r.subject solid]
      exact lookupSegments_eq_some_iff.mpr (.status r.subject recorded)
    · rw [lookup, segments_outputPath r.subject solid solid', lookupSegments_recorded, recorded]
      rfl
  · cases answer : (c.recordAll rs).lookup path with
    | some v => exact .inl ⟨v, rfl, lookupSegments_eq_some_iff.mp answer⟩
    | none =>
      refine .inr ⟨rfl, fun v found => ?_⟩
      cases answer.symm.trans (lookupSegments_eq_some_iff.mpr found)

/-- A step is recorded with an output and then again without. -/
def rerun : List Record :=
  [⟨.step, "build", ⟨"success", .ofList [("version", "1.2")]⟩⟩,
    ⟨.job, "build", ⟨"success", ∅⟩⟩,
    ⟨.step, "build", ⟨"skipped", ∅⟩⟩]

theorem lookup_recordAll_rerun :
    IsSegment "build" ∧ IsSegment "version" ∧
      (Context.empty.recordAll rerun).lookup "steps.build.outcome" = some (.text "skipped") ∧
      (Context.empty.recordAll rerun).lookup "steps.build.outputs.version" = none ∧
      (Context.empty.recordAll rerun).lookup "jobs..test.status" =
        Context.empty.lookup "jobs..test.status" := by
  have solid : IsSegment "build" := by decide
  have solid' : IsSegment "version" := by decide
  have elsewhere : segments "jobs..test.status" = ["jobs", "test", "status"] := by decide +kernel
  obtain ⟨written, aside, -⟩ := lookup_recordAll Context.empty rerun
  obtain ⟨status, output⟩ := written (rerun.take 2) _ [] rfl (by simp) solid
  refine ⟨solid, solid', status, output "version" solid', aside _ fun r member => ?_⟩
  rw [elsewhere]
  revert r
  decide

end Context

end Drydock
