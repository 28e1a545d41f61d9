import Drydock.Calendar

set_option autoImplicit false
set_option relaxedAutoImplicit false

/-!
Plain data: what documents hold, what an event carries, and what expressions evaluate to. The keys
of a map are scalars. A collection that holds itself is laid out to some depth, and bears the same
label wherever it appears in itself.
-/

namespace Drydock

/-- A value without parts. -/
inductive Scalar
  | null
  | bool (b : Bool)
  | int (n : Int)
  | float (x : Float)
  | text (s : String)
  | bytes (b : List UInt8)
  | date (d : Date)
  | moment (m : Moment)
  deriving Repr

/-- Plain data. The entries of a map stand in the order in which they were written. -/
inductive Value
  | scalar (s : Scalar)
  | list (items : List Value)
  | map (entries : List (Scalar × Value))
  | set (items : List Scalar)
  | pair (first second : Value)
  /-- A collection among some that hold themselves. -/
  | labelled (label : Nat) (content : Value)
  deriving Repr

namespace Scalar

instance : Inhabited Scalar := ⟨.null⟩

/-- The number that a scalar stands for among keys: truth values count as one and zero. -/
def number? : Scalar → Option (Int ⊕ Float)
  | .bool b => some (.inl (if b then 1 else 0))
  | .int n => some (.inl n)
  | .float x =>
    match Number.exactInt? x with
    | some n => some (.inl n)
    | none => some (.inr x)
  | _ => none

/-- Equality of keys: numbers by their value, whatever their kind, and all else by kind and
content. The value that is no number equals nothing. -/
def same (a b : Scalar) : Bool :=
  match a.number?, b.number? with
  | some (.inl m), some (.inl n) => m == n
  | some (.inr x), some (.inr y) => x == y
  | some _, _ => false
  | _, some _ => false
  | none, none =>
    match a, b with
    | .null, .null => true
    | .text s, .text t => s == t
    | .bytes b, .bytes c => b == c
    | .date d, .date e => d == e
    | .moment m, .moment n => m.same n
    | _, _ => false

/-- The double that is no number. -/
def isNaN : Scalar → Bool
  | .float x => x.isNaN
  | _ => false

end Scalar

namespace Value

instance : Inhabited Value := ⟨.scalar .null⟩

/-- The value of absence. -/
@[match_pattern] abbrev null : Value := .scalar .null

/-- A truth value. -/
@[match_pattern] abbrev bool (b : Bool) : Value := .scalar (.bool b)

/-- An integer. -/
@[match_pattern] abbrev int (n : Int) : Value := .scalar (.int n)

/-- A double. -/
@[match_pattern] abbrev float (x : Float) : Value := .scalar (.float x)

/-- A text. -/
@[match_pattern] abbrev text (s : String) : Value := .scalar (.text s)

/-- The whole number that a value is. Truth values count as one and zero. -/
def whole? : Value → Option Int
  | .int n => some n
  | .bool b => some (if b then 1 else 0)
  | _ => none

/-- A value without its label. -/
def bare : Value → Value
  | .labelled _ content => content.bare
  | v => v

/-- The value under a key equal to the given one. -/
def valueAt? (key : Scalar) : List (Scalar × Value) → Option Value
  | [] => none
  | e :: r => if e.1.same key then some e.2 else valueAt? key r

/-- The value under a text key. -/
def field? (name : String) (entries : List (Scalar × Value)) : Option Value :=
  valueAt? (.text name) entries

/-- Writes an entry: an equal key keeps its place and spelling. -/
def putField (key : Scalar) (value : Value) : List (Scalar × Value) → List (Scalar × Value)
  | [] => [(key, value)]
  | e :: r => if e.1.same key then (e.1, value) :: r else e :: putField key value r

/-- A map from entries of which a later one overwrites the value of an earlier one with an equal
key. -/
def ofEntries (es : List (Scalar × Value)) : Value :=
  .map (es.foldl (fun acc e => putField e.1 e.2 acc) [])

/-- A map with text keys. -/
def ofBindings (b : List (String × Value)) : Value :=
  .map (b.map fun e => (.text e.1, e.2))

end Value

end Drydock
