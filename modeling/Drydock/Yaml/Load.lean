import Drydock.Yaml.Fault

set_option autoImplicit false
set_option relaxedAutoImplicit false

/-!
From documents to values. A collection that is used inside itself is laid out to a depth that no
reader of documents exhausts; in such a document every collection is labelled by its number. The
entries of the root can be changed on the way, and uses of the root inside it see the change.
-/

namespace Drydock.Yaml

/-- A collection with a number: its value, and its first entry as a pair. -/
structure Laid where
  value : Value
  pair : Value

instance : Inhabited Laid := ⟨⟨.null, .null⟩⟩

/-- What the values of nodes depend on. -/
structure Layout where
  /-- The scalars of nodes that have the tag of one. -/
  scalar : Node → Option Scalar
  /-- The collections with anchors, the ones laid out last first. -/
  laid : List (Nat × Laid)
  /-- Collections are labelled. -/
  labels : Bool
  /-- What the entries of a mapping with a number become. -/
  change : Nat → List (Scalar × Value) → List (Scalar × Value)

namespace Layout

/-- Labels a collection. -/
def label (l : Layout) (id : Nat) (v : Value) : Value :=
  if l.labels then .labelled id v else v

/-- A collection with a number. -/
def get (l : Layout) (id : Nat) : Laid :=
  (l.laid.lookup id).getD default

mutual

/-- The value of a node. -/
def value (l : Layout) : Node → Value
  | .scalar id tag text => ((l.scalar (.scalar id tag text)).map .scalar).getD .null
  | .list id tag items =>
    match l.scalar (.list id tag items), tag with
    | some s, _ => .scalar s
    | none, .pairs => l.label id (.list (pairs l items))
    | none, _ => l.label id (.list (values l items))
  | .map id tag entries =>
    match l.scalar (.map id tag entries), tag with
    | some s, _ => .scalar s
    | none, .set => l.label id (.set ((fields l entries).map Prod.fst))
    | none, _ => l.label id (.map (l.change id (fields l entries)))
  | .ref id => ((l.scalar (.ref id)).map .scalar).getD (l.get id).value
termination_by structural n => n

/-- The values of nodes. -/
def values (l : Layout) : List Node → List Value
  | [] => []
  | n :: r => value l n :: values l r
termination_by structural ns => ns

/-- The entries of a mapping; keys that are no scalars are left out. -/
def fields (l : Layout) : List (Node × Node) → List (Scalar × Value)
  | [] => []
  | (k, v) :: r =>
    match l.scalar k with
    | some s => (s, value l v) :: fields l r
    | none => fields l r
termination_by structural es => es

/-- The first entries of mappings as pairs. -/
def pairs (l : Layout) : List Node → List Value
  | [] => []
  | .map _ _ entries :: r => firstPair l entries :: pairs l r
  | .ref id :: r => (l.get id).pair :: pairs l r
  | _ :: r => pairs l r
termination_by structural ns => ns

/-- The first entry of a mapping as a pair. -/
def firstPair (l : Layout) : List (Node × Node) → Value
  | [] => .null
  | (k, v) :: _ => .pair (value l k) (value l v)
termination_by structural es => es

end

/-- Lays out a collection with an anchor. -/
def add (l : Layout) (id : Nat) (n : Node) : Layout :=
  let pair := match n with
    | .map _ _ entries => firstPair l entries
    | _ => .null
  { l with laid := (id, ⟨value l n, pair⟩) :: l.laid }

/-- Lays out all collections with anchors some times, one time around another. -/
def addAll (anchored : List (Nat × Node)) : Nat → Layout → Layout
  | 0, l => l
  | n + 1, l => addAll anchored n (anchored.foldl (fun l e => l.add e.1 e.2) l)

end Layout

namespace Document

/-- The scalar of a node that has the tag of one. -/
def scalarAt (d : Document) (n : Node) : Option Scalar :=
  if (d.tag n).isCollection then none else some ((d.scalar n).toOption.getD .null)

/-- The number of the root, if it is a collection. -/
def rootId? (d : Document) : Option Nat :=
  match d.root with
  | .list id _ _ => some id
  | .map id _ _ => some id
  | .ref id => some id
  | .scalar _ _ _ => none

/-- How often collections are laid out around each other: where none is used inside itself, once is
enough; else a reader passes through a few on its way to a text, in which each appears twice at
most. -/
def rounds (d : Document) : Nat :=
  if d.loops.isEmpty then 1 else 2 * d.loops.length + 12

/-- The value of a document without faults, the entries of its root changed. -/
def value (d : Document) (change : List (Scalar × Value) → List (Scalar × Value)) : Value :=
  let start : Layout :=
    ⟨d.scalarAt, [], !d.loops.isEmpty, fun id es => if d.rootId? = some id then change es else es⟩
  (start.addAll d.anchored d.rounds).value d.root

/-- The value of a document, or its first fault. -/
def load (d : Document) (change : List (Scalar × Value) → List (Scalar × Value)) :
    Except LoadFault Value :=
  match d.fault? with
  | some fault => .error fault
  | none => .ok (d.value change)

end Document

/-- The obstacle among tokens. -/
def obstacle? (tokens : List Token) : Option Obstacle :=
  tokens.findSome? fun
    | .obstacle o => some o
    | _ => none

/-- The fault that an obstacle is. -/
def Obstacle.fault : Obstacle → LoadFault
  | .code n => .code n
  | .digits count => .scalar (.integer 10 "" (.tooLong count))

/-- The value of a text, the entries of its root changed: absence if the text holds no document. -/
def load (change : List (Scalar × Value) → List (Scalar × Value)) (text : String) :
    Except LoadFault Value := do
  let tokens ← (tokens? text.toList).elim (.error .malformed) .ok
  match obstacle? tokens, document? tokens with
  | _, none => .error .malformed
  | some o, some _ => .error o.fault
  | none, some none => return .null
  | none, some (some d) => d.load change

end Drydock.Yaml
