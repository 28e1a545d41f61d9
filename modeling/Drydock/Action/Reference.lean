import Drydock.Path
import Drydock.Settings

set_option autoImplicit false
set_option relaxedAutoImplicit false

/-!
How a step names its action: by a path in the workspace, by an image, or by a repository with or
without a ref. Repositories are kept in a cache, each under its name and ref.
-/

namespace Drydock

open Text (after? cutAt? occursIn replaceAll)

/-- An action as a step names it. -/
inductive ActionRef
  | path (text : String)
  | image (name : String)
  | repository (name ref : String)
  | unsupported
  deriving DecidableEq, Repr

namespace ActionRef

/-- What an image name begins with. -/
def imageScheme : String := "docker://"

/-- The name of an image without the scheme. -/
def withoutScheme (image : String) : String :=
  ((after? imageScheme.toList image.toList).map String.ofList).getD image

/-- The repository and the ref of a text; the ref after the first at sign, unless it is empty. -/
def splitRepository (text defaultRef : String) : String × String :=
  match cutAt? ['@'] text.toList with
  | none => (text, defaultRef)
  | some (name, []) => (String.ofList name, defaultRef)
  | some (name, ref) => (String.ofList name, String.ofList ref)

/-- The action that a text names. -/
def parse (text defaultRef : String) : ActionRef :=
  match after? ['.', '/'] text.toList with
  | some _ => .path text
  | none =>
    match after? imageScheme.toList text.toList with
    | some name => .image (String.ofList name)
    | none =>
      if occursIn ['/'] text.toList then
        let r := splitRepository text defaultRef
        .repository r.1 r.2
      else .unsupported

/-- Where a repository is cloned from. -/
def url (repository : String) : String :=
  "https://github.com/" ++ repository

/-- Where a repository at a ref is kept. -/
def cachePath (cache repository ref : String) : Path :=
  ((Path.parse cache).child (String.ofList (replaceAll ['/'] ['-'] repository.toList))).child ref

end ActionRef

end Drydock
