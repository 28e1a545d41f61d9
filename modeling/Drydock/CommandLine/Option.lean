import Drydock.Text.Search

set_option autoImplicit false
set_option relaxedAutoImplicit false

/-!
Options among arguments. A long option takes its value after an equals sign or from the next
argument, short ones can be written together, and two hyphens end the options.
-/

namespace Drydock.CommandLine

open Text (cutAt?)

/-- An option: its long name with hyphens, its letter if it has one, and whether it has a value. -/
structure OptionDecl where
  long : String
  short : Option Char
  takesValue : Bool
  deriving DecidableEq, Repr

/-- An option that was given; a flag has an empty value. -/
structure Setting where
  option : String
  value : String
  deriving DecidableEq, Repr

/-- What one argument sets, and the option that still needs a value. -/
structure Partial where
  settings : List Setting
  awaits : Option String
  deriving DecidableEq, Repr

/-- Reads letters written together; the rest after a letter with a value is that value. -/
def readLetters (decls : List OptionDecl) : List Char → Option Partial
  | [] => some ⟨[], none⟩
  | c :: r =>
    match decls.find? fun d => d.short == some c with
    | none => none
    | some d =>
      if d.takesValue then
        if r = [] then some ⟨[], some d.long⟩ else some ⟨[⟨d.long, String.ofList r⟩], none⟩
      else (readLetters decls r).map fun p => { p with settings := ⟨d.long, ""⟩ :: p.settings }

/-- The name of an argument, and the value after its equals sign. -/
def splitValue (arg : List Char) : List Char × Option (List Char) :=
  match cutAt? ['='] arg with
  | some (name, value) => (name, some value)
  | none => (arg, none)

/-- Reads an argument that begins with a hyphen. -/
def readOption (decls : List OptionDecl) (arg : List Char) : Option Partial :=
  let parts := splitValue arg
  match decls.find? fun d => d.long == String.ofList parts.1, parts.2 with
  | some d, some value =>
    if d.takesValue then some ⟨[⟨d.long, String.ofList value⟩], none⟩ else none
  | some d, none => some (if d.takesValue then ⟨[], some d.long⟩ else ⟨[⟨d.long, ""⟩], none⟩)
  | none, _ => if (Text.after? ['-', '-'] arg).isSome then none else readLetters decls (arg.drop 1)

/-- Options that were given, and the other arguments. -/
structure Scanned where
  settings : List Setting
  arguments : List String
  deriving DecidableEq, Repr

namespace Scanned

/-- More options in front. -/
def withSettings (settings : List Setting) (s : Scanned) : Scanned :=
  { s with settings := settings ++ s.settings }

/-- One more argument in front. -/
def withArgument (arg : String) (s : Scanned) : Scanned :=
  { s with arguments := arg :: s.arguments }

/-- The last value of an option. -/
def value? (s : Scanned) (option : String) : Option String :=
  (s.settings.filter fun x => x.option == option).getLast?.map Setting.value

/-- All values of an option. -/
def values (s : Scanned) (option : String) : List String :=
  (s.settings.filter fun x => x.option == option).map Setting.value

/-- A flag was given. -/
def has (s : Scanned) (option : String) : Bool :=
  s.settings.any fun x => x.option == option

end Scanned

/-- An argument is read as an option: it begins with a hyphen and goes on. -/
def isOption (arg : List Char) : Bool :=
  match arg with
  | '-' :: _ :: _ => true
  | _ => false

/-- Reads arguments. Unless options may stand `anywhere`, they end at the first other argument. -/
def scan (decls : List OptionDecl) (anywhere : Bool) : List String → Option Scanned
  | [] => some ⟨[], []⟩
  | arg :: rest =>
    if arg = "--" then some ⟨[], rest⟩
    else if isOption arg.toList then
      match readOption decls arg.toList with
      | none => none
      | some ⟨settings, none⟩ => (scan decls anywhere rest).map (Scanned.withSettings settings)
      | some ⟨settings, some option⟩ =>
        match rest with
        | [] => none
        | value :: rest =>
          (scan decls anywhere rest).map (Scanned.withSettings (settings ++ [⟨option, value⟩]))
    else if anywhere then (scan decls anywhere rest).map (Scanned.withArgument arg)
    else some ⟨[], arg :: rest⟩

end Drydock.CommandLine
