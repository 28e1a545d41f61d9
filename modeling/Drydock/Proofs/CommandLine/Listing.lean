import Drydock.Proofs.CommandLine.Asking
import Drydock.Proofs.Traversal
import Mathlib

set_option autoImplicit false
set_option relaxedAutoImplicit false

/-!
Lists of workflows. Main statement: a request for the workflows of a directory is answered with
those that its files hold, in the order of their names, and with a warning for every other file,
unless a path there cannot be looked at or a file breaks the reader.
-/

namespace Drydock

namespace Text

theorem sorted_pairwise (texts : List String) : (sorted texts).Pairwise (· ≤ ·) := by
  have le_iff (a b : String) : (!decide (b < a)) = true ↔ a ≤ b := by
    rw [Bool.not_eq_true', decide_eq_false_iff_not, not_lt]
  have ordered := @List.pairwise_mergeSort String (fun a b => !decide (b < a))
    (fun a b c first second =>
      (le_iff a c).mpr (((le_iff a b).mp first).trans ((le_iff b c).mp second)))
    (fun a b => by
      rw [Bool.or_eq_true, le_iff, le_iff]
      exact le_total a b) texts
  exact ordered.imp fun {a b} holds => (le_iff a b).mp holds

/-- Of equal texts that stand side by side in order one is kept. -/
theorem eraseReps_loop (text : String) (texts before : List String)
    (ordered : (text :: texts).Pairwise (· ≤ ·)) :
    ∃ rest, List.eraseRepsBy.loop (· == ·) text texts before = before.reverse ++ text :: rest ∧
      (∀ x, x ∈ text :: rest ↔ x ∈ text :: texts) ∧ (text :: rest).Pairwise (· < ·) := by
  induction texts generalizing text before with
  | nil => exact ⟨[], by simp [List.eraseRepsBy.loop], by simp, List.pairwise_singleton _ _⟩
  | cons next texts ih =>
    obtain ⟨least, others⟩ := List.pairwise_cons.mp ordered
    by_cases same : text = next
    · subst same
      obtain ⟨rest, kept, members, increasing⟩ := ih text before others
      refine ⟨rest, ?_, fun x => ?_, increasing⟩
      · rw [List.eraseRepsBy.loop, beq_self_eq_true]
        exact kept
      · rw [members x]
        simp
    · obtain ⟨rest, kept, members, increasing⟩ := ih next (text :: before) others
      refine ⟨next :: rest, ?_, fun x => ?_, ?_⟩
      · rw [List.eraseRepsBy.loop, beq_eq_false_iff_ne.mpr same]
        simpa using kept
      · rw [List.mem_cons, members x, List.mem_cons (a := x) (b := text)]
      · refine List.pairwise_cons.mpr ⟨fun x member => ?_, increasing⟩
        have later := (members x).mp member
        have first : text < next := lt_of_le_of_ne (least next List.mem_cons_self) same
        rcases List.mem_cons.mp later with rfl | later
        · exact first
        · exact first.trans_le ((List.pairwise_cons.mp others).1 x later)

/-- The distinct texts among some, each before the greater ones. -/
theorem sortedDistinct_spec (texts : List String) :
    (∀ x, x ∈ sortedDistinct texts ↔ x ∈ texts) ∧ (sortedDistinct texts).Pairwise (· < ·) := by
  have ordered := sorted_pairwise texts
  have members : ∀ x, x ∈ sorted texts ↔ x ∈ texts := fun x => (sorted_perm texts).mem_iff
  rw [sortedDistinct, List.eraseReps]
  cases same : sorted texts with
  | nil =>
    rw [same] at members
    exact ⟨members, List.Pairwise.nil⟩
  | cons text rest =>
    rw [same] at ordered members
    obtain ⟨kept, loop, members', increasing⟩ := eraseReps_loop text rest [] ordered
    rw [List.eraseRepsBy, loop, List.reverse_nil, List.nil_append]
    exact ⟨fun x => (members' x).trans (members x), increasing⟩

end Text

namespace FileTree

variable {t : FileTree} {here directory : Path}

/-- A name stands in the directory at a path. -/
def Holds (t : FileTree) (here directory : Path) (name : String) : Prop :=
  ∃ place e, t.find here directory = .ok (place, .directory) ∧ e ∈ t.entries ∧
    place ++ [name] <+: e.1

/-- These are the names of the workflow files in a directory, in increasing order. -/
structure HasWorkflows (t : FileTree) (here directory : Path) (names : List String) : Prop where
  increasing : names.Pairwise (· < ·)
  mem_iff : ∀ n, n ∈ names ↔ t.Holds here directory n ∧
    (∃ place bytes, t.find here (directory.child n) = .ok (place, .file bytes)) ∧
    (directory.child n).suffix ∈ workflowSuffixes

/-- Whether there is something at the path of a name cannot be told. -/
def Unlooked (t : FileTree) (here directory : Path) (name : String) (fault : FileFault) : Prop :=
  t.Holds here directory name ∧ t.look here (directory.child name) = .error fault

theorem mem_names {name : String} :
    name ∈ t.names here directory ↔ t.Holds here directory name := by
  unfold names Holds
  rcases found : t.find here directory with fault | ⟨place, bytes | _⟩
  · simp
  · simp
  · simp only [(Text.sortedDistinct_spec _).1, List.mem_filterMap, Option.ite_none_right_eq_some,
      Except.ok.injEq, Prod.mk.injEq, and_true]
    constructor
    · rintro ⟨e, member, inside, next⟩
      obtain ⟨rest, whole⟩ := List.isPrefixOf_iff_prefix.mp inside
      rw [← whole, List.getElem?_append_right le_rfl, Nat.sub_self] at next
      obtain ⟨more, rfl⟩ := List.head?_eq_some_iff.mp (List.head?_eq_getElem? (l := rest) ▸ next)
      exact ⟨place, e, rfl, member, more, by simpa using whole⟩
    · rintro ⟨_, e, rfl, member, more, whole⟩
      refine ⟨e, member, ?_, ?_⟩
      · exact List.isPrefixOf_iff_prefix.mpr ⟨name :: more, by simpa using whole⟩
      · rw [← whole]
        simp

theorem names_increasing (t : FileTree) (here directory : Path) :
    (t.names here directory).Pairwise (· < ·) := by
  unfold names
  split
  · exact (Text.sortedDistinct_spec _).2
  · exact List.Pairwise.nil

/-- Whether there is a workflow file at a path. -/
def isWorkflowFile (t : FileTree) (here p : Path) : Except FileFault Bool := do
  return (← t.isFile here p) && p.suffix ∈ workflowSuffixes

theorem isWorkflowFile_eq_error {p : Path} {fault : FileFault} :
    t.isWorkflowFile here p = .error fault ↔ t.look here p = .error fault := by
  unfold isWorkflowFile isFile
  cases t.look here p <;> simp [Except.map, bind, Except.bind, pure, Except.pure]

theorem isWorkflowFile_eq_ok_true {p : Path} :
    t.isWorkflowFile here p = .ok true ↔
      (∃ place bytes, t.find here p = .ok (place, .file bytes)) ∧ p.suffix ∈ workflowSuffixes := by
  unfold isWorkflowFile isFile look
  rcases t.find here p with (_ | _ | _ | _ | _ | _) | ⟨place, bytes | _⟩ <;>
    simp [Except.map, bind, Except.bind, pure, Except.pure]

theorem workflowFiles_eq (isDirectory : t.isDirectory here directory = .ok true) :
    t.workflowFiles here directory =
      ((t.names here directory).map directory.child).filterM (t.isWorkflowFile here) := by
  rw [workflowFiles, isDirectory]
  rfl

/-- Either the path of some name cannot be looked at, or the workflow files are found. -/
theorem workflowFiles_cases (isDirectory : t.isDirectory here directory = .ok true) :
    (∃ n fault, t.Unlooked here directory n fault ∧
      t.workflowFiles here directory = .error fault) ∨
    ((∀ n fault, ¬t.Unlooked here directory n fault) ∧ ∃ names,
      t.HasWorkflows here directory names ∧
        t.workflowFiles here directory = .ok (names.map directory.child)) := by
  rw [workflowFiles_eq isDirectory]
  rcases filterM_map_cases directory.child (t.isWorkflowFile here) (t.names here directory) with
    ⟨fault, n, member, failed, same⟩ | ⟨judged, names, inside, mem_iff, same⟩
  · exact .inl ⟨n, fault, ⟨mem_names.mp member, isWorkflowFile_eq_error.mp failed⟩, same⟩
  · refine .inr ⟨?_, names, ⟨(names_increasing t here directory).sublist inside, fun n => ?_⟩, same⟩
    · rintro n fault ⟨held, unlooked⟩
      obtain ⟨b, ok⟩ := judged n (mem_names.mpr held)
      cases (isWorkflowFile_eq_error.mpr unlooked).symm.trans ok
    · rw [mem_iff, mem_names, isWorkflowFile_eq_ok_true]

end FileTree

namespace CommandLine

namespace Surroundings

variable {s : Surroundings} {paths : List Path}

/-- Reading the workflow in a file breaks the reader. -/
def Breaks (s : Surroundings) (p : Path) (fault : ReadFault) : Prop :=
  s.files.readWorkflow s.currentDir p = .error fault ∧ fault.breaksReader = true

/-- A file in a list, if it holds a workflow. -/
def listed? (s : Surroundings) (p : Path) : Option Listed :=
  match s.files.readWorkflow s.currentDir p with
  | .ok w => some ⟨p, w.name⟩
  | .error _ => none

/-- The warning of a file that holds no workflow. -/
def warning? (s : Surroundings) (p : Path) : Option Warning :=
  match s.files.readWorkflow s.currentDir p with
  | .ok _ => none
  | .error fault => (fault.report? p.text "workflow").map fun message =>
    ⟨"workflow_parse_failed", [("file", p.text), ("error", message)]⟩

/-- How a list is printed. -/
def shown (format : ListFormat) (pretty : Bool) (rows : List Listed) : List String :=
  match format with
  | .json => [Value.json (if pretty then .pretty else .spaced) (listData rows)]
  | .text => listLines pretty rows

theorem readAll_cons_of_breaks {p : Path} {fault : ReadFault} (breaks : s.Breaks p fault)
    (r : List Path) : s.readAll (p :: r) = .error (.escape (.read fault)) := by
  simp only [readAll, breaks.1, ReadFault.report?, breaks.2, if_true]

/-- A file that does not break the reader is listed or warned of, and the others after it. -/
theorem readAll_cons {p : Path} (sound : ∀ fault, ¬s.Breaks p fault) (r : List Path) :
    ((s.listed? p).isNone ↔ (s.warning? p).isSome) ∧
      s.readAll (p :: r) = (s.readAll r).map fun rest =>
        ((s.listed? p).toList ++ rest.1, (s.warning? p).toList ++ rest.2) := by
  cases read : s.files.readWorkflow s.currentDir p with
  | ok w =>
    refine ⟨by simp [listed?, warning?, read], ?_⟩
    simp only [readAll, listed?, warning?, read]
    cases s.readAll r <;> rfl
  | error fault =>
    have reported : fault.breaksReader = false :=
      Bool.eq_false_iff.mpr fun broken => sound fault ⟨read, broken⟩
    refine ⟨by simp [listed?, warning?, read, ReadFault.report?, reported], ?_⟩
    simp only [readAll, listed?, warning?, read, ReadFault.report?, reported]
    cases s.readAll r <;> rfl

/-- Either a first file breaks the reader, or every file is listed or warned of. -/
theorem readAll_cases (s : Surroundings) (paths : List Path) :
    (∃ before p after fault, paths = before ++ p :: after ∧
      (∀ q ∈ before, ∀ fault, ¬s.Breaks q fault) ∧ s.Breaks p fault ∧
      s.readAll paths = .error (.escape (.read fault))) ∨
    ((∀ p ∈ paths, ∀ fault, ¬s.Breaks p fault) ∧
      s.readAll paths = .ok (paths.filterMap s.listed?, paths.filterMap s.warning?)) := by
  induction paths with
  | nil => exact .inr ⟨by simp, rfl⟩
  | cons p r ih =>
    by_cases broken : ∃ fault, s.Breaks p fault
    · obtain ⟨fault, breaks⟩ := broken
      exact .inl ⟨[], p, r, fault, rfl, by simp, breaks, readAll_cons_of_breaks breaks r⟩
    · have sound : ∀ fault, ¬s.Breaks p fault := fun fault breaks => broken ⟨fault, breaks⟩
      obtain ⟨-, whole⟩ := readAll_cons sound r
      rcases ih with ⟨before, q, after, fault, rfl, earlier, breaks, same⟩ | ⟨others, same⟩
      · refine .inl ⟨p :: before, q, after, fault, rfl, ?_, breaks, by rw [whole, same]; rfl⟩
        exact List.forall_mem_cons.mpr ⟨sound, earlier⟩
      · refine .inr ⟨List.forall_mem_cons.mpr ⟨sound, others⟩, ?_⟩
        rw [whole, same]
        cases listed : s.listed? p <;> cases warned : s.warning? p <;>
          simp [Except.map, listed, warned]

/-- How a request for the workflows in a directory is answered. -/
inductive ListAnswer (s : Surroundings) (debug : Bool) (folder : Path) (format : ListFormat)
    (pretty : Bool) : Except Escape Response → Prop
  /-- Whether there is something at a path in the directory cannot be told. -/
  | unlooked {n : String} {fault : FileFault}
      (unlooked : s.files.Unlooked s.currentDir folder n fault) :
      ListAnswer s debug folder format pretty (.error (.stop (.file fault)))
  /-- The first file that breaks the reader hides all others. -/
  | broken {before after : List String} {n : String} {fault : ReadFault}
      (looked : ∀ n fault, ¬s.files.Unlooked s.currentDir folder n fault)
      (files : s.files.HasWorkflows s.currentDir folder (before ++ n :: after))
      (earlier : ∀ k ∈ before, ∀ fault, ¬s.Breaks (folder.child k) fault)
      (breaks : s.Breaks (folder.child n) fault) :
      ListAnswer s debug folder format pretty (.error (.read fault))
  /-- Every file is listed or warned of. -/
  | complete {names : List String}
      (looked : ∀ n fault, ¬s.files.Unlooked s.currentDir folder n fault)
      (files : s.files.HasWorkflows s.currentDir folder names)
      (sound : ∀ n ∈ names, ∀ fault, ¬s.Breaks (folder.child n) fault)
      (each : ∀ n ∈ names,
        (s.listed? (folder.child n)).isNone ↔ (s.warning? (folder.child n)).isSome) :
      ListAnswer s debug folder format pretty (.ok
        { Response.printed debug
            (shown format pretty ((names.map folder.child).filterMap s.listed?)) with
          warnings := (names.map folder.child).filterMap s.warning? })

section Sample

/-- The bytes of `name: ` and one that is no text. -/
def undecodableBytes : List UInt8 :=
  [110, 97, 109, 101, 58, 32, 255, 10]

/-- A directory with a file of bytes that are no text, and the file of a workflow. -/
def mixedFiles : FileTree :=
  ⟨[(["work", "wf", "bad.yml"], .file undecodableBytes),
    (["work", "wf", "build.yml"], .file "name: Build\non: push\n".toUTF8.toList)]⟩

theorem asks_list_wf :
    (still mixedFiles).Asks ["list", "--dir", "wf"] false (.list "wf" .text false) where
  understood := ⟨⟨false, .list, ["--dir", "wf"]⟩, by decide +kernel⟩
  legal := by
    rintro path found
    obtain rfl : "wf" = path := Option.some.inj found
    decide +kernel
  admitted := by decide +kernel

theorem workflowFiles_wf :
    (still mixedFiles).files.workflowFiles (still mixedFiles).currentDir (Path.parse "wf") =
      .ok [⟨0, ["wf", "bad.yml"]⟩, ⟨0, ["wf", "build.yml"]⟩] := by
  have isDirectory : mixedFiles.isDirectory (Path.parse "/work") (Path.parse "wf") = .ok true :=
    eq_ok_of_toOption (by decide +kernel)
  have found : mixedFiles.find (Path.parse "/work") (Path.parse "wf") =
      .ok (["work", "wf"], .directory) := eq_ok_of_toOption (by decide +kernel)
  have sorted : Text.sortedDistinct ["bad.yml", "build.yml"] = ["bad.yml", "build.yml"] := by cbv
  have names : mixedFiles.names (Path.parse "/work") (Path.parse "wf") =
      ["bad.yml", "build.yml"] := by
    rw [FileTree.names, found]
    exact sorted
  change mixedFiles.workflowFiles (Path.parse "/work") (Path.parse "wf") = _
  rw [FileTree.workflowFiles_eq isDirectory, names]
  exact eq_ok_of_toOption (by decide +kernel)

theorem breaks_bad :
    (still mixedFiles).Breaks ⟨0, ["wf", "bad.yml"]⟩
      (.text (.undecodable ⟨6, 1, .error .startByte⟩ undecodableBytes)) := by
  have read : mixedFiles.read (Path.parse "/work") ⟨0, ["wf", "bad.yml"]⟩ = .ok undecodableBytes :=
    eq_ok_of_toOption (by decide +kernel)
  have malformed : Text.Utf8.decode undecodableBytes = .error ⟨6, 1, .error .startByte⟩ := by cbv
  refine ⟨?_, rfl⟩
  change mixedFiles.readWorkflow (Path.parse "/work") _ = _
  rw [FileTree.readWorkflow, FileTree.readText, read]
  simp only [malformed]

end Sample

end Surroundings

end CommandLine

end Drydock
