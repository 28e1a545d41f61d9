import Drydock.Bindings
import Drydock.Text.Upper
import Drydock.Value.Filling

set_option autoImplicit false
set_option relaxedAutoImplicit false

/-!
Structured log entries: which of them are shown, and in which form, as the environment asks for it.
The event of an entry can be filled with values, and some names of fields have a meaning of their
own.
-/

namespace Drydock.Log

/-- How grave an entry is. -/
inductive Level
  | debug | info | warning | error | critical
  deriving DecidableEq, Repr

namespace Level

/-- The rank of a level. -/
def rank : Level → Int
  | .debug => 10
  | .info => 20
  | .warning => 30
  | .error => 40
  | .critical => 50

/-- The word for a level. -/
def text : Level → String
  | .debug => "debug"
  | .info => "info"
  | .warning => "warning"
  | .error => "error"
  | .critical => "critical"

/-- The level of a kind of entry. An exception is logged as an error. -/
def ofKind : String → Level
  | "debug" => .debug
  | "info" => .info
  | "warning" | "warn" => .warning
  | "critical" | "fatal" => .critical
  | _ => .error

end Level

/-- Why entries are not logged. -/
inductive Fault
  /-- The word for the level is that of a text. -/
  | unknownLevel (text : String)
  /-- The word for the level is that of a table, shown here. -/
  | noLevel (table : String)
  /-- A field has the name of a parameter of what writes the entry. -/
  | givenTwice (writer parameter : String)
  /-- The field for the record of the entry holds something else. -/
  | noRecord (kind : String)
  /-- The values to fill the event with are neither a list nor a text nor a map. -/
  | noValues (kind : String)
  /-- The values to fill the event with are a map of one entry, which has no first item. -/
  | noFirst
  | event (fault : FillFault)
  deriving DecidableEq, Repr

/-- The wording of a fault. -/
def Fault.message : Fault → String
  | .unknownLevel text => "Unknown level: " ++ Text.quoted text
  | .noLevel table => "Level not an integer or a valid string: " ++ table
  | .givenTwice writer parameter =>
    s!"BoundLogger.{writer}() got multiple values for argument '{parameter}'"
  | .noRecord kind => s!"'{kind}' object has no attribute 'name'"
  | .noValues kind => s!"object of type '{kind}' has no len()"
  | .noFirst => "0"
  | .event fault => fault.message

/-- The form of an entry that is no data and has no other form. -/
def basicFormat : String := "%(levelname)s:%(name)s:%(message)s"

/-- The table of the styles of forms. -/
def styles : String :=
  "\x7b'%': (<class 'logging.PercentStyle'>, '" ++ basicFormat ++
    "'), '\x7b': (<class 'logging.StrFormatStyle'>, " ++
    "'\x7blevelname\x7d:\x7bname\x7d:\x7bmessage\x7d'), " ++
    "'$': (<class 'logging.StringTemplateStyle'>, " ++
    "'$\x7blevelname\x7d:$\x7bname\x7d:$\x7bmessage\x7d')\x7d"

/-- The rank of a level by a word in capitals, that of a warning for most words. Words for other
things that stand beside the levels are refused. -/
def rankOf : String → Except Fault Int
  | "NOTSET" => .ok 0
  | "DEBUG" => .ok Level.debug.rank
  | "INFO" => .ok Level.info.rank
  | "ERROR" => .ok Level.error.rank
  | "FATAL" | "CRITICAL" => .ok Level.critical.rank
  | "BASIC_FORMAT" => .error (.unknownLevel basicFormat)
  | "_STYLES" => .error (.noLevel styles)
  | _ => .ok Level.warning.rank

/-- The least rank that is shown: the given one, or else that of the level that the environment
names. -/
def threshold (environ : Bindings String) (given : Option Int) : Except Fault Int :=
  match given with
  | some rank => .ok rank
  | none => rankOf (Text.upper ((environ.get? "ACTRUN_LOG_LEVEL").getD "WARNING"))

/-- Entries are written as data, because that is forced or because the environment asks for it. -/
def asData (environ : Bindings String) (forced : Bool) : Bool :=
  let format := ((environ.get? "ACTRUN_LOG_FORMAT").getD "").toList.map Char.toLower
  forced || format == "json".toList

/-- An entry. Its fields can be of any kind. -/
structure Entry (α : Type) where
  level : Level
  event : String
  fields : Bindings α

/-- An entry of a kind. That of an exception says so, unless a field does. -/
def Entry.ofKind {α : Type} (isTrue : α) (kind event : String) (fields : List (String × α)) : Entry α :=
  let fields := if kind = "exception" then ("exc_info", isTrue) :: fields else fields
  ⟨.ofKind kind, event, .ofList fields⟩

/-- The entries that are shown. -/
def shown {α : Type} (least : Int) (entries : List (Entry α)) : List (Entry α) :=
  entries.filter fun e => least ≤ e.level.rank

/-- Nothing, nothing in it, or zero. -/
def isVoid : Value → Bool
  | .null | .bool false | .text "" | .list [] | .map [] => true
  | .int n => n == 0
  | .float x => x == 0
  | _ => false

/-- What an event is filled with: a map that is the only item of a list stands for itself. -/
def fillWith : Value → Except Fault Value
  | .list [.map (e :: r)] => .ok (.map (e :: r))
  | .map [_] => .error .noFirst
  | .list items => .ok (.list items)
  | .map entries => .ok (.map entries)
  | .text s => .ok (.text s)
  | v => .error (.noValues v.kindName)

/-- The name of the field with the values that the event is filled with. -/
def valuesField : String := "positional_args"

/-- The name of the field with the record of an entry. -/
def recordField : String := "_record"

/-- The fields that are taken out of every entry. -/
def ownFields : List String := ["_from_structlog", recordField, "stack_info"]

namespace Entry

variable {α : Type}

/-- No field has the name of a parameter. -/
def checkNames (e : Entry α) : Except Fault Unit :=
  match e.fields.keys.find? fun k => k ∈ ["self", "event"] with
  | some k => .error (.givenTwice e.level.text k)
  | none =>
    if e.fields.contains "method_name" then .error (.givenTwice "_proxy_to_logger" "method_name")
    else .ok ()

/-- Nothing takes the place of the record. -/
def checkRecord (view : α → Value) (e : Entry α) : Except Fault Unit :=
  match (e.fields.get? recordField).map view with
  | none | some .null => .ok ()
  | some v => .error (.noRecord v.kindName)

/-- The entry with its event filled. -/
def fillEvent (view : α → Value) (e : Entry α) : Except Fault (Entry α) := do
  let values := ((e.fields.get? valuesField).map view).getD .null
  let event ←
    if isVoid values then pure e.event
    else (fill e.event (← fillWith values)).mapError .event
  let fields := match values with
    | .null => e.fields
    | _ => e.fields.erase valuesField
  return { e with event := event, fields := fields }

/-- The entry as it is logged. Entries that are not shown can be at fault, too. -/
def prepare (view : α → Value) (e : Entry α) : Except Fault (Entry α) := do
  e.checkNames
  e.checkRecord view
  let e ← e.fillEvent view
  return { e with fields := ownFields.foldl Bindings.erase e.fields }

/-- The fields of an entry as data: its event, and over all others its level and logger. -/
def data (ofText : String → α) (logger : String) (e : Entry α) : Bindings α :=
  (e.fields.insert "event" (ofText e.event)).insertAll
    [("level", ofText e.level.text),
      ("logger", ofText (if logger = "" then "root" else logger))]

/-- The number of lines that an entry takes where it is no data. -/
def lineCount (e : Entry α) : Nat :=
  e.event.toList.count '\n' + 1

end Entry

end Drydock.Log
