import Drydock.Schema.Checked
import Drydock.Text.Sorted
import Drydock.Value.Text
import Drydock.Yaml.Load

set_option autoImplicit false
set_option relaxedAutoImplicit false

/-!
What can be wrong with a document: its text cannot be read, it is no mapping, or some places of it
do not fit.
-/

namespace Drydock

/-- Why a document is not what it should be. -/
inductive DocumentFault
  | unreadable (fault : Yaml.LoadFault)
  | notMapping
  | misfit (places : List Schema.Location)
  deriving Repr

/-- The places of problems as dotted texts, in order and without repetition. -/
def placeTexts (places : List Schema.Location) : List String :=
  Text.sortedDistinct (places.map (".".intercalate ·))

/-- The wording of a kind of collection that is no key. -/
def Yaml.Tag.kindName : Yaml.Tag → String
  | .map => "dict"
  | .set => "set"
  | _ => "list"

/-- The wording of what is found where an entry of a mapping should be. -/
def Yaml.NotEntry.message : Yaml.NotEntry → String
  | .character => "not enough values to unpack (expected 2, got 1)"
  | .scalar => "cannot unpack non-iterable ScalarNode object"
  | .list => "cannot unpack non-iterable SequenceNode object"
  | .map => "cannot unpack non-iterable MappingNode object"

/-- The reason of an unreadable text, where there is one to give. -/
def Yaml.LoadFault.reason : Yaml.LoadFault → String
  | .malformed => ""
  | .duplicateKey key => "duplicate key " ++ key.nested
  | .unwritableKey => Number.notWritable
  | .scalar fault => fault.message
  | .collectionKey tag => s!"unhashable type: '{tag.kindName}'"
  | .notEntries found => found.message
  | .code n =>
    if n < Number.twoTo 31 then "chr() arg not in range(0x110000)"
    else "Python int too large to convert to C int"

end Drydock
