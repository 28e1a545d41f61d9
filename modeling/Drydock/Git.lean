import Drydock.Context
import Drydock.Failure
import Drydock.Path
import Drydock.Program.Dialogue

set_option autoImplicit false
set_option relaxedAutoImplicit false

/-!
What version control tells about a checkout, and how the files of an action are cloned.
-/

namespace Drydock.Git

open Text (after? cutAt? splitAtChar strip)

/-- Runs the program in a directory and gives its output without blanks around. -/
def ask (args : List String) (directory : Option String) :
    Dialogue (Except CommandFault String) := do
  return (← Dialogue.output ⟨"git" :: args, directory⟩).map strip

/-- The root of a checkout. -/
def root (directory : Option String) : Dialogue (Except CommandFault Path) := do
  return (← ask ["rev-parse", "--show-toplevel"] directory).map Path.parse

/-- The commit that is checked out. -/
def head (directory : Option String) : Dialogue (Except CommandFault String) :=
  ask ["rev-parse", "HEAD"] directory

/-- The ref that is checked out; without one, the commit. -/
def currentRef (directory : Option String) : Dialogue (Except CommandFault String) := do
  match ← ask ["symbolic-ref", "HEAD"] directory with
  | .error (.failed ..) => head directory
  | answer => return answer

/-- The address of a remote. -/
def remoteUrl (remote : String) (directory : Option String) :
    Dialogue (Except CommandFault String) :=
  ask ["config", "--get", s!"remote.{remote}.url"] directory

/-- An address without the ending of a repository. -/
def withoutEnding (url : List Char) : List Char :=
  match after? ".git".toList.reverse url.reverse with
  | some r => r.reverse
  | none => url

/-- The owner and name of a repository, from its address. -/
def repositoryOf (address : String) : String :=
  let url := withoutEnding (Text.trim address.toList)
  match after? "git@".toList url with
  | some _ => String.ofList (((cutAt? [':'] url).map Prod.snd).getD [])
  | none =>
    match ((splitAtChar '/' url).filter (· ≠ [])).reverse with
    | name :: owner :: _ => String.ofList (owner ++ '/' :: name)
    | _ => String.ofList url

/-- The answer of a dialogue, empty if there is none. -/
def orEmpty (d : Dialogue (Except CommandFault String)) : Dialogue String := do
  return match ← d with
    | .ok text => text
    | .error _ => ""

/-- The refusal to describe a checkout. -/
def noState (fault : CommandFault) : Failure :=
  .of .git s!"could not read git state: {fault.message}"

/-- The name of the repository of a checkout: that of its remote, or else that of its directory. -/
def repositoryName (remote workspace : String) : String :=
  if remote ≠ "" then repositoryOf remote
  else if workspace ≠ "" then (Path.parse workspace).name
  else ""

/-- The facts about the checkout in a directory. -/
def checkout (directory : Option String) : Dialogue (Except Failure Context.Checkout) := do
  match ← currentRef directory with
  | .error fault => return .error (noState fault)
  | .ok ref =>
    match ← head directory with
    | .error fault => return .error (noState fault)
    | .ok sha =>
      let workspace ← orEmpty (do return (← root directory).map Path.text)
      let actor ← orEmpty (ask ["config", "user.name"] directory)
      let remote ← orEmpty (remoteUrl "origin" directory)
      return .ok ⟨ref, sha, actor, repositoryName remote workspace, workspace⟩

/-- The first characters of a commit. -/
def shortSha (sha : String) : String :=
  String.ofList (sha.toList.take 7)

/-- Why a clone is not made. -/
inductive CloneFault
  | failed (message : String)
  /-- The program disappeared after it had been run. -/
  | missing (program : String)
  deriving DecidableEq, Repr

/-- What a fault of a later command means for a clone. -/
def cloneFault (url ref : String) : CommandFault → CloneFault
  | .missing program => .missing program
  | .failed _ _ _ errors =>
    let said := strip (errors.getD "")
    .failed s!"cloning {url}@{ref} failed: {said}"

/-- Clones a whole repository and checks a ref out. -/
def cloneAll (url ref destination : String) : Dialogue (Except CloneFault Unit) := do
  match ← ask ["clone", url, destination] none with
  | .error fault => return .error (cloneFault url ref fault)
  | .ok _ =>
    match ← ask ["-C", destination, "checkout", ref] none with
    | .error fault => return .error (cloneFault url ref fault)
    | .ok _ => return .ok ()

/-- Clones a repository at a ref. What is there already is used again; a ref that is no branch or
tag takes the whole repository. -/
def clone (isThere : Bool) (url ref destination : String) :
    Dialogue (Except CloneFault Unit) := do
  if isThere then return .ok ()
  else
    match ← ask ["clone", "--depth", "1", "--branch", ref, url, destination] none with
    | .ok _ => return .ok ()
    | .error (.missing _) =>
      return .error (.failed "git command not found. Please install Git.")
    | .error (.failed ..) => cloneAll url ref destination

end Drydock.Git
