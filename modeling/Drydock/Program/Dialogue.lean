import Drydock.Text.Blank
import Drydock.Text.Quoted

set_option autoImplicit false
set_option relaxedAutoImplicit false

/-!
Dialogues with other programs: a dialogue asks for a program to be run, learns how that went, and
goes on with what it learned. Who answers is left open, so that a dialogue can be held with a script
as well as with a world that every program changes.
-/

namespace Drydock

/-- A program to run with arguments, in a directory of its own or in the current one. -/
structure Command where
  argv : List String
  directory : Option String
  deriving DecidableEq, Repr

/-- How running a program went. -/
inductive Reply
  | missing
  | exited (code : Int) (out : String) (errors : Option String)
  deriving DecidableEq, Repr

/-- Running went well and nothing was printed. -/
def Reply.silent : Reply := .exited 0 "" (some "")

/-- Why a program gave no answer. -/
inductive CommandFault
  | missing (program : String)
  | failed (argv : List String) (code : Int) (out : String) (errors : Option String)
  deriving DecidableEq, Repr

namespace CommandFault

/-- The names of the signals by number. -/
def signals : List (Nat × String) :=
  [(1, "SIGHUP"), (2, "SIGINT"), (3, "SIGQUIT"), (4, "SIGILL"), (5, "SIGTRAP"), (6, "SIGABRT"),
    (7, "SIGBUS"), (8, "SIGFPE"), (9, "SIGKILL"), (10, "SIGUSR1"), (11, "SIGSEGV"),
    (12, "SIGUSR2"), (13, "SIGPIPE"), (14, "SIGALRM"), (15, "SIGTERM"), (16, "SIGSTKFLT"),
    (17, "SIGCHLD"), (18, "SIGCONT"), (19, "SIGSTOP"), (20, "SIGTSTP"), (21, "SIGTTIN"),
    (22, "SIGTTOU"), (23, "SIGURG"), (24, "SIGXCPU"), (25, "SIGXFSZ"), (26, "SIGVTALRM"),
    (27, "SIGPROF"), (28, "SIGWINCH"), (29, "SIGIO"), (30, "SIGPWR"), (31, "SIGSYS"),
    (34, "SIGRTMIN"), (64, "SIGRTMAX")]

/-- How a program ended; a negative code is a signal. -/
def endText (code : Int) : String :=
  if code < 0 then
    match signals.lookup (-code).toNat with
    | some name => s!"died with <Signals.{name}: {-code}>."
    | none => s!"died with unknown signal {-code}."
  else s!"returned non-zero exit status {code}."

/-- The wording of a fault. -/
def message : CommandFault → String
  | .missing program => program
  | .failed argv code _ _ =>
    let shown := Text.quotedList argv
    s!"Command '{shown}' {endText code}"

/-- What a failed program said: its errors or else its output, without blanks around. -/
def detail (out : String) (errors : Option String) : String :=
  Text.strip (match errors with
    | none | some "" => out
    | some text => text)

end CommandFault

/-- A conversation with other programs that ends in a value. -/
inductive Dialogue (α : Type)
  | done (a : α)
  | ask (c : Command) (next : Reply → Dialogue α)

namespace Dialogue

variable {α β σ : Type}

/-- A dialogue continued by another. -/
def andThen : Dialogue α → (α → Dialogue β) → Dialogue β
  | done a, f => f a
  | ask c next, f => ask c fun r => (next r).andThen f

instance : Monad Dialogue where
  pure := done
  bind := andThen

/-- Runs one program and gives its output. -/
def output (c : Command) : Dialogue (Except CommandFault String) :=
  ask c fun
    | .missing => done (.error (.missing (c.argv.head?.getD "")))
    | .exited code out errors =>
      done (if code = 0 then .ok out else .error (.failed c.argv code out errors))

/-- Holds a dialogue with a world that answers and changes; gives the commands, the value and the
world that is left. -/
def holdWith (answer : σ → Command → Reply × σ) :
    Dialogue α → σ → List Command × α × σ
  | done a, s => ([], a, s)
  | ask c next, s =>
    let r := answer s c
    let rest := (next r.1).holdWith answer r.2
    (c :: rest.1, rest.2)

/-- Takes the next reply of a script; when it runs out, all goes well. -/
def fromScript : List Reply → Command → Reply × List Reply
  | [], _ => (.silent, [])
  | r :: rest, _ => (r, rest)

/-- Holds a dialogue with a script of replies. -/
def hold (d : Dialogue α) (replies : List Reply) : List Command × α :=
  let r := d.holdWith fromScript replies
  (r.1, r.2.1)

theorem andThen_done (d : Dialogue α) : d.andThen done = d := by
  induction d with
  | done a => rfl
  | ask c next ih => simp [andThen, ih]

theorem andThen_assoc {γ : Type} (d : Dialogue α) (f : α → Dialogue β) (g : β → Dialogue γ) :
    (d.andThen f).andThen g = d.andThen fun a => (f a).andThen g := by
  induction d with
  | done a => rfl
  | ask c next ih => simp [andThen, ih]

instance : LawfulMonad Dialogue :=
  LawfulMonad.mk' Dialogue andThen_done (fun _ _ => rfl) andThen_assoc

end Dialogue

end Drydock
