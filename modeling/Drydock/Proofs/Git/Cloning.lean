import Drydock.Git
import Mathlib.Order.Basic

set_option autoImplicit false
set_option relaxedAutoImplicit false

/-!
Cloning into a directory, again and again. What is there already is used again, whatever it is. Main
statement: a request that ends well leaves the ref that it is for, unless an earlier one was stopped
between cloning the whole repository and checking the ref out; from then on every request ends well and
leaves the main branch.
-/

namespace Drydock

/-- A program was found and ended well. -/
def Reply.wentWell : Reply → Bool
  | .missing => false
  | .exited code _ _ => code == 0

namespace Git

/-- A ref of the repository at an address. -/
structure Revision where
  url : String
  ref : String
  deriving DecidableEq, Repr

/-- To clone a repository at a ref and nothing else of it. -/
def shallowClone (url ref directory : String) : Command :=
  ⟨["git", "clone", "--depth", "1", "--branch", ref, url, directory], none⟩

/-- To clone a whole repository. -/
def wholeClone (url directory : String) : Command :=
  ⟨["git", "clone", url, directory], none⟩

/-- To check a ref out. -/
def checkOut (ref directory : String) : Command :=
  ⟨["git", "-C", directory, "checkout", ref], none⟩

/-- A directory of a world that repositories are cloned into. Each program goes well or not: one that
does leaves there what it is for, and one that does not changes nothing. -/
structure Site (σ : Type) where
  directory : String
  /-- The branch that a whole clone of a repository has checked out. -/
  mainBranch : String → String
  answer : σ → Command → Reply × σ
  /-- What is checked out, if there is a repository. -/
  holds? : σ → Option Revision
  unchanged (s : σ) (c : Command) (failed : (answer s c).1.wentWell = false) :
    holds? (answer s c).2 = holds? s
  cloned (s : σ) (url ref : String)
    (well : (answer s (shallowClone url ref directory)).1.wentWell = true) :
    holds? (answer s (shallowClone url ref directory)).2 = some ⟨url, ref⟩
  clonedWhole (s : σ) (url : String)
    (well : (answer s (wholeClone url directory)).1.wentWell = true) :
    holds? (answer s (wholeClone url directory)).2 = some ⟨url, mainBranch url⟩
  checkedOut (s : σ) (ref : String) (held : Revision) (there : holds? s = some held)
    (well : (answer s (checkOut ref directory)).1.wentWell = true) :
    holds? (answer s (checkOut ref directory)).2 = some { held with ref := ref }

/-- What is made of a reply: what the program printed, or why it failed. -/
def heard (c : Command) : Reply → Except CommandFault String
  | .missing => .error (.missing (c.argv.head?.getD ""))
  | .exited code out errors =>
    Except.map Text.strip (if code = 0 then .ok out else .error (.failed c.argv code out errors))

variable {σ α : Type} {c : Command} {r : Reply} {text : String} {fault : CommandFault}

theorem wentWell_of_heard (said : heard c r = .ok text) : r.wentWell = true := by
  cases r with
  | missing => cases said
  | exited code out errors =>
    by_cases zero : code = 0
    · exact beq_iff_eq.mpr zero
    · rw [heard, if_neg zero] at said
      cases said

theorem wentWell_of_heard_error (said : heard c r = .error fault) : r.wentWell = false := by
  cases r with
  | missing => rfl
  | exited code out errors =>
    by_cases zero : code = 0
    · rw [heard, if_pos zero] at said
      cases said
    · exact beq_eq_false_iff_ne.mpr zero

/-- To ask a program is to run it and to go on with what is made of its reply. -/
theorem holdWith_ask (answer : σ → Command → Reply × σ) {args : List String}
    (own : c = ⟨"git" :: args, none⟩) (next : Except CommandFault String → Dialogue α) (s : σ) :
    (ask args none >>= next).holdWith answer s =
      (c :: ((next (heard c (answer s c).1)).holdWith answer (answer s c).2).1,
        ((next (heard c (answer s c).1)).holdWith answer (answer s c).2).2) := by
  have asked : ask args none >>= next = .ask c fun r => next (heard c r) := by
    rw [own]
    refine congrArg (Dialogue.ask _) (funext fun r => ?_)
    cases r <;> rfl
  rw [asked]
  rfl

namespace Site

variable {site : Site σ} {url ref : String} {s : σ}

/-- A request for a repository at a ref: the programs that are run, how it ends, and what it leaves. -/
def request (site : Site σ) (url ref : String) (s : σ) :
    List Command × Except CloneFault Unit × σ :=
  (clone (site.holds? s).isSome url ref site.directory).holdWith site.answer s

/-- What so many requests, one after another, leave. -/
def after (site : Site σ) (url ref : String) : Nat → σ → σ
  | 0, s => s
  | n + 1, s => (site.request url ref (site.after url ref n s)).2.2

/-- A request is stopped at its last program: the repository is there, but the ref is not checked out. -/
def Halts (site : Site σ) (url ref : String) (s : σ) : Prop :=
  ∃ fault left, site.request url ref s =
    ([shallowClone url ref site.directory, wholeClone url site.directory,
      checkOut ref site.directory], .error fault, left)

/-- What a request can come to. -/
inductive Course (site : Site σ) (url ref : String) (s : σ) :
    List Command × Except CloneFault Unit × σ → Prop
  | reused (held : Revision) (there : site.holds? s = some held) : Course site url ref s ([], .ok (), s)
  | shallow (left : σ) (absent : site.holds? s = none) (leaves : site.holds? left = some ⟨url, ref⟩) :
      Course site url ref s ([shallowClone url ref site.directory], .ok (), left)
  | missing (fault : CloneFault) (left : σ) (absent : site.holds? s = none)
      (leaves : site.holds? left = none) :
      Course site url ref s ([shallowClone url ref site.directory], .error fault, left)
  | refused (fault : CloneFault) (left : σ) (absent : site.holds? s = none)
      (leaves : site.holds? left = none) :
      Course site url ref s ([shallowClone url ref site.directory, wholeClone url site.directory],
        .error fault, left)
  | whole (left : σ) (absent : site.holds? s = none) (leaves : site.holds? left = some ⟨url, ref⟩) :
      Course site url ref s ([shallowClone url ref site.directory, wholeClone url site.directory,
        checkOut ref site.directory], .ok (), left)
  | halted (fault : CloneFault) (left : σ) (absent : site.holds? s = none)
      (leaves : site.holds? left = some ⟨url, site.mainBranch url⟩) :
      Course site url ref s ([shallowClone url ref site.directory, wholeClone url site.directory,
        checkOut ref site.directory], .error fault, left)

theorem cloneAll_cases (absent : site.holds? s = none) :
    (∃ fault left, (cloneAll url ref site.directory).holdWith site.answer s =
        ([wholeClone url site.directory], .error fault, left) ∧ site.holds? left = none) ∨
      (∃ left, (cloneAll url ref site.directory).holdWith site.answer s =
          ([wholeClone url site.directory, checkOut ref site.directory], .ok (), left) ∧
        site.holds? left = some ⟨url, ref⟩) ∨
      ∃ fault left, (cloneAll url ref site.directory).holdWith site.answer s =
          ([wholeClone url site.directory, checkOut ref site.directory], .error fault, left) ∧
        site.holds? left = some ⟨url, site.mainBranch url⟩ := by
  unfold cloneAll
  rw [holdWith_ask (c := wholeClone url site.directory) site.answer rfl]
  generalize left : (site.answer s (wholeClone url site.directory)).2 = t
  cases said : heard _ (site.answer s (wholeClone url site.directory)).1 with
  | error fault =>
    have same := (site.unchanged s _ (wentWell_of_heard_error said)).trans absent
    exact .inl ⟨_, t, rfl, left ▸ same⟩
  | ok text =>
    have there : site.holds? t = some ⟨url, site.mainBranch url⟩ :=
      left ▸ site.clonedWhole s url (wentWell_of_heard said)
    dsimp only
    rw [holdWith_ask (c := checkOut ref site.directory) site.answer rfl]
    cases said : heard _ (site.answer t (checkOut ref site.directory)).1 with
    | error fault =>
      have same := (site.unchanged t _ (wentWell_of_heard_error said)).trans there
      exact .inr (.inr ⟨_, _, rfl, same⟩)
    | ok text =>
      exact .inr (.inl ⟨_, rfl, site.checkedOut t ref _ there (wentWell_of_heard said)⟩)

theorem course_request (site : Site σ) (url ref : String) (s : σ) :
    Course site url ref s (site.request url ref s) := by
  unfold request
  cases there : site.holds? s with
  | some held => exact .reused held there
  | none =>
    have bare : (none : Option Revision).isSome ≠ true := Bool.false_ne_true
    unfold clone
    rw [if_neg bare, holdWith_ask (c := shallowClone url ref site.directory) site.answer rfl]
    cases said : heard _ (site.answer s (shallowClone url ref site.directory)).1 with
    | ok text => exact .shallow _ there (site.cloned s url ref (wentWell_of_heard said))
    | error fault =>
      have same := (site.unchanged s _ (wentWell_of_heard_error said)).trans there
      cases fault with
      | missing program => exact .missing _ _ there same
      | failed argv code out errors =>
        dsimp only
        rcases cloneAll_cases same with ⟨fault, left, ran, leaves⟩ | ⟨left, ran, leaves⟩ |
            ⟨fault, left, ran, leaves⟩ <;> rw [ran]
        · exact .refused fault left there leaves
        · exact .whole left there leaves
        · exact .halted fault left there leaves

/-- A repository that is there is used again without a program being run, whatever it is. -/
theorem request_of_holds {held : Revision} (there : site.holds? s = some held) :
    site.request url ref s = ([], .ok (), s) := by
  unfold request
  rw [there]
  rfl

theorem not_halts_of_holds {held : Revision} (there : site.holds? s = some held) :
    ¬site.Halts url ref s := by
  rintro ⟨fault, left, halted⟩
  rw [request_of_holds there] at halted
  cases halted

theorem holds_of_ok (well : (site.request url ref s).2.1 = .ok ()) :
    site.holds? (site.request url ref s).2.2 ≠ none := by
  have course := course_request site url ref s
  generalize site.request url ref s = outcome at course well
  cases course with
  | reused held there => simp [there]
  | shallow left _ leaves | whole left _ leaves => simp [leaves]
  | missing | refused | halted => cases well

theorem not_halts_of_ok (well : (site.request url ref s).2.1 = .ok ()) : ¬site.Halts url ref s := by
  rintro ⟨fault, left, halted⟩
  rw [halted] at well
  cases well

/-- What stands in the directory after requests, the first of which found nothing there. -/
inductive Stands (site : Site σ) (url ref : String) (s : σ) (n : Nat) : Prop
  | nothing (absent : site.holds? (site.after url ref n s) = none)
      (none : ∀ k < n, ¬site.Halts url ref (site.after url ref k s)) : Stands site url ref s n
  | asked (there : site.holds? (site.after url ref n s) = some ⟨url, ref⟩)
      (none : ∀ k < n, ¬site.Halts url ref (site.after url ref k s)) : Stands site url ref s n
  | left (there : site.holds? (site.after url ref n s) = some ⟨url, site.mainBranch url⟩)
      (k : Nat) (earlier : k < n) (halts : site.Halts url ref (site.after url ref k s)) :
      Stands site url ref s n

theorem after_succ_of_holds {held : Revision} {n : Nat}
    (there : site.holds? (site.after url ref n s) = some held) :
    site.after url ref (n + 1) s = site.after url ref n s :=
  congrArg (fun r => r.2.2) (request_of_holds there)

theorem Stands.succ {n : Nat} (stands : Stands site url ref s n) : Stands site url ref s (n + 1) := by
  cases stands with
  | asked there none =>
    refine .asked ((after_succ_of_holds there).symm ▸ there) ?_
    exact Nat.forall_lt_succ_right.mpr ⟨none, not_halts_of_holds there⟩
  | left there k earlier halts =>
    exact .left ((after_succ_of_holds there).symm ▸ there) k (Nat.lt_succ_of_lt earlier) halts
  -- Only where nothing is there yet does a request run anything, and one course alone halts.
  | nothing absent none =>
    have course := course_request site url ref (site.after url ref n s)
    generalize asked : site.request url ref (site.after url ref n s) = outcome at course
    have next : site.after url ref (n + 1) s = outcome.2.2 := congrArg (fun r => r.2.2) asked
    have own (whole : ∀ fault left, outcome ≠ ([shallowClone url ref site.directory,
        wholeClone url site.directory, checkOut ref site.directory], .error fault, left)) :
        ∀ k < n + 1, ¬site.Halts url ref (site.after url ref k s) := by
      refine Nat.forall_lt_succ_right.mpr ⟨none, ?_⟩
      rintro ⟨fault, left, halted⟩
      exact whole fault left (asked.symm.trans halted)
    cases course with
    | reused held there => cases absent.symm.trans there
    | shallow left _ leaves => exact .asked (next ▸ leaves) (own (by simp))
    | missing fault left _ leaves => exact .nothing (next ▸ leaves) (own (by simp))
    | refused fault left _ leaves => exact .nothing (next ▸ leaves) (own (by simp))
    | whole left _ leaves => exact .asked (next ▸ leaves) (own (by simp))
    | halted fault left _ leaves =>
      exact .left (next ▸ leaves) n (Nat.lt_succ_self n) ⟨fault, left, asked⟩

theorem stands_after (absent : site.holds? s = none) (n : Nat) : Stands site url ref s n := by
  induction n with
  | zero => exact .nothing absent fun k none => absurd none (Nat.not_lt_zero k)
  | succ n ih => exact ih.succ

/-- Of requests that find nothing in the beginning, each that ends well leaves the ref that it is for,
unless an earlier one was stopped at its last program and the ref is not that of the main branch. After
one that was stopped there, every request ends well at once and leaves the main branch. -/
theorem request_gives_ref (site : Site σ) (url ref : String) (s : σ) (absent : site.holds? s = none)
    (n : Nat) :
    ((site.request url ref (site.after url ref n s)).2.1 = .ok () →
      (site.holds? (site.after url ref (n + 1) s) = some ⟨url, ref⟩ ↔
        site.mainBranch url = ref ∨ ∀ k < n, ¬site.Halts url ref (site.after url ref k s))) ∧
    ∀ k < n, site.Halts url ref (site.after url ref k s) →
      site.request url ref (site.after url ref n s) = ([], .ok (), site.after url ref n s) ∧
        site.holds? (site.after url ref n s) = some ⟨url, site.mainBranch url⟩ := by
  constructor
  · intro well
    cases stands_after absent (n + 1) with
    | nothing gone _ => exact absurd gone (holds_of_ok well)
    | asked there none =>
      exact iff_of_true there (.inr fun k earlier => none k (Nat.lt_succ_of_lt earlier))
    | left there k earlier halts =>
      have before : k < n := by
        refine Nat.lt_of_le_of_ne (Nat.le_of_lt_succ earlier) ?_
        rintro rfl
        exact not_halts_of_ok well halts
      have unlike : ¬∀ k < n, ¬site.Halts url ref (site.after url ref k s) :=
        fun none => none k before halts
      rw [there, Option.some_inj, Revision.mk.injEq, or_iff_left unlike]
      exact and_iff_right rfl
  · intro k earlier halts
    cases stands_after absent n with
    | nothing _ none | asked _ none => exact absurd halts (none k earlier)
    | left there _ _ _ => exact ⟨request_of_holds there, there⟩

section Sample

/-- What is checked out in a directory after a program that went well. -/
def Revision.next (directory : String) (mainBranch : String → String) (held : Option Revision) :
    List String → Option Revision
  | ["git", "clone", "--depth", "1", "--branch", ref, url, d] =>
    if d = directory then some ⟨url, ref⟩ else held
  | ["git", "clone", url, d] => if d = directory then some ⟨url, mainBranch url⟩ else held
  | ["git", "-C", d, "checkout", ref] =>
    if d = directory then held.map fun r => { r with ref := ref } else held
  | _ => held

/-- The directory of a world that answers by a script. -/
def scripted (directory : String) (mainBranch : String → String) :
    Site (List Reply × Option Revision) where
  directory := directory
  mainBranch := mainBranch
  answer s c :=
    let r := Dialogue.fromScript s.1 c
    (r.1, r.2, if r.1.wentWell then Revision.next directory mainBranch s.2 c.argv else s.2)
  holds? s := s.2
  unchanged s c failed := if_neg (Bool.eq_false_iff.mp failed)
  cloned s url ref well := (if_pos well).trans (if_pos rfl)
  clonedWhole s url well := (if_pos well).trans (by simp [wholeClone, Revision.next])
  checkedOut s ref held there well :=
    (if_pos well).trans ((if_pos rfl).trans (congrArg (Option.map _) there))

/-- A directory in a world that answers by a script, and a repository with the main branch `main`. -/
def sample : Site (List Reply × Option Revision) := scripted "/cache/octo-hello/v2" fun _ => "main"

/-- In the first request nothing is cloned; in the second the ref cannot be cloned by itself. -/
def recovering : List Reply × Option Revision :=
  ([.exited 128 "" none, .exited 128 "" none, .exited 128 "" none], none)

theorem request_gives_ref_recovering :
    sample.holds? recovering = none ∧
      (sample.request "octo/hello" "v2" recovering).2.1.toBool = false ∧
      (sample.request "octo/hello" "v2" (sample.after "octo/hello" "v2" 1 recovering)).2.1 = .ok () ∧
      sample.holds? (sample.after "octo/hello" "v2" 2 recovering) = some ⟨"octo/hello", "v2"⟩ := by
  have well : (sample.request "octo/hello" "v2"
      (sample.after "octo/hello" "v2" 1 recovering)).2.1 = .ok () := by decide +kernel
  refine ⟨rfl, by decide +kernel, well, ?_⟩
  refine ((request_gives_ref sample _ _ recovering rfl 1).1 well).mpr (.inr fun k earlier => ?_)
  obtain rfl := Nat.lt_one_iff.mp earlier
  have few : (sample.request "octo/hello" "v2" recovering).1.length = 2 := by decide +kernel
  rintro ⟨fault, left, halted⟩
  change sample.request "octo/hello" "v2" recovering = _ at halted
  rw [halted] at few
  cases few

/-- The ref cannot be cloned by itself, and at first it cannot be checked out either. -/
def stumbling : List Reply × Option Revision :=
  ([.exited 128 "" none, .silent, .exited 1 "" (some "error: pathspec")], none)

/-- The second of two requests for a ref ends well, but it is not the ref that is checked out. -/
theorem request_misses_ref :
    sample.holds? stumbling = none ∧
      (sample.request "octo/hello" "v2" stumbling).2.1 =
        .error (.failed "cloning octo/hello@v2 failed: error: pathspec") ∧
      (sample.request "octo/hello" "v2" (sample.after "octo/hello" "v2" 1 stumbling)).2.1 = .ok () ∧
      sample.holds? (sample.after "octo/hello" "v2" 2 stumbling) = some ⟨"octo/hello", "main"⟩ := by
  decide +kernel

end Sample

end Site

end Git

end Drydock
