import Drydock.Text.Utf8

set_option autoImplicit false
set_option relaxedAutoImplicit false

/-!
Why a file cannot be used.
-/

namespace Drydock

/-- Why a file cannot be used; other reasons come with their wording. -/
inductive FileFault
  | notFound (path : String)
  | notDirectory (path : String)
  | isDirectory (path : String)
  | nameTooLong (path : String)
  /-- A path that holds the character zero. -/
  | zeroInPath
  | other (message : String)
  deriving DecidableEq, Repr

/-- The wording of a fault. -/
def FileFault.message : FileFault → String
  | .notFound path => "[Errno 2] No such file or directory: " ++ Text.quoted path
  | .notDirectory path => "[Errno 20] Not a directory: " ++ Text.quoted path
  | .isDirectory path => "[Errno 21] Is a directory: " ++ Text.quoted path
  | .nameTooLong path => "[Errno 36] File name too long: " ++ Text.quoted path
  | .zeroInPath => "embedded null byte"
  | .other message => message

/-- The system is not asked for the file, which breaks whoever wants to use it. -/
def FileFault.breaksReader : FileFault → Bool
  | .zeroInPath => true
  | _ => false

/-- Why a text file has no text: it cannot be used, or its bytes are no text. -/
inductive TextFault
  | file (fault : FileFault)
  | undecodable (piece : Text.Utf8.Piece) (bytes : List UInt8)

end Drydock
