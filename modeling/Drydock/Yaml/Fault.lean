import Drydock.Value.Text
import Drydock.Yaml.Node

set_option autoImplicit false
set_option relaxedAutoImplicit false

/-!
What keeps a document from having a value. The collections of a document are filled level by level:
all that one level holds is looked at, in order, before anything inside it, and the first fault
found that way is reported. A collection is filled once, however often it is used. No mapping may
have two equal keys.
-/

namespace Drydock.Yaml

/-- What is found where an entry of a mapping should be. -/
inductive NotEntry
  /-- A character of a scalar. -/
  | character
  | scalar | list | map
  deriving DecidableEq, Repr

/-- Why a text has no value. -/
inductive LoadFault
  | malformed
  | duplicateKey (key : Scalar)
  /-- Two equal keys that cannot be written. -/
  | unwritableKey
  | scalar (fault : ScalarFault)
  /-- A collection as the key of a mapping. -/
  | collectionKey (tag : Tag)
  | notEntries (found : NotEntry)
  /-- An escape with a number beyond the code points. -/
  | code (n : Nat)
  deriving Repr

/-- The fault lies in the reading of a value and not in the writing of the text. -/
def LoadFault.breaksReader : LoadFault → Bool
  | .malformed | .duplicateKey _ => false
  | _ => true

namespace Document

/-- The node that a node stands for. -/
def resolve (d : Document) : Node → Node
  | .ref id => (d.anchored.lookup id).getD .absent
  | n => n

/-- The tag of a node. -/
def tag (d : Document) (n : Node) : Tag :=
  match d.resolve n with
  | .scalar _ tag _ => tag
  | .list _ tag _ => tag
  | .map _ tag _ => tag
  | .ref _ => .other

/-- The text of a node where a scalar is needed: a mapping stands for the value of its first key
that is an equals sign. -/
def textOf (d : Document) : Nat → Node → Option String
  | 0, _ => none
  | fuel + 1, n =>
    match d.resolve n with
    | .scalar _ _ text => some text
    | .map _ _ entries => do
      let e ← entries.find? fun e => d.tag e.1 == .value
      d.textOf fuel e.2
    | _ => none

/-- The scalar of a node with the tag of one, or what is at fault with it. -/
def scalar (d : Document) (n : Node) : Except LoadFault Scalar :=
  match d.textOf d.size n, d.resolve n with
  | none, _ => .error .malformed
  | some _, .map _ .timestamp _ => .error (.scalar .notText)
  | some text, _ =>
    match scalarOf (d.tag n) text with
    | none => .error .malformed
    | some found => found.mapError .scalar

/-- A node is written as the word for what is no number. -/
def writesNaN (d : Document) (n : Node) : Bool :=
  (d.textOf d.size n).any isNaNWord

/-- What is at fault with a node before it is filled. A node that its tag makes a collection has no
such fault. -/
def outerFault? (d : Document) (n : Node) : Option LoadFault :=
  if (d.tag n).isCollection then none
  else match d.scalar n with
    | .ok _ => none
    | .error fault => some fault

/-- The scalar of a key, or what is at fault with it. -/
def keyScalar (d : Document) (k : Node) : Except LoadFault Scalar :=
  if (d.tag k).isCollection then .error (.collectionKey (d.tag k)) else d.scalar k

/-- Two keys with their scalars are one key of a mapping: they are equal, or both are no number and
one value between them, by the word for it or by being one node. -/
def isSameKey (d : Document) (a b : Node × Scalar) : Bool :=
  a.2.same b.2 ||
    (a.2.isNaN && b.2.isNaN && (a.1.id == b.1.id || (d.writesNaN a.1 && d.writesNaN b.1)))

/-- The first fault of the keys of a mapping after those seen. -/
def keyFault? (d : Document) (seen : List (Node × Scalar)) : List Node → Option LoadFault
  | [] => none
  | k :: r =>
    match d.keyScalar k with
    | .error fault => some fault
    | .ok s =>
      if seen.any fun e => d.isSameKey e (k, s) then
        some (if s.isWritable then .duplicateKey s else .unwritableKey)
      else d.keyFault? ((k, s) :: seen) r

/-- What a mapping is filled with. -/
def mapContent (d : Document) : Node → List (Except LoadFault Node)
  | .map _ _ entries =>
    match d.keyFault? [] (entries.map Prod.fst) with
    | some fault => [.error fault]
    | none => entries.map fun e => .ok e.2
  | .scalar _ _ text => [.error (if text = "" then .malformed else .notEntries .character)]
  | .list _ _ (first :: _) =>
    [.error (.notEntries (match d.resolve first with
      | .scalar _ _ _ => .scalar
      | .map _ _ _ => .map
      | _ => .list))]
  | _ => [.error .malformed]

/-- What an item of a list of pairs is filled with: the key and the value of its one entry. -/
def pairContent (d : Document) (item : Node) : List (Except LoadFault Node) :=
  match d.resolve item with
  | .map _ _ [(k, v)] => [.ok k, .ok v]
  | _ => [.error .malformed]

/-- What a collection is filled with, in order, up to what is at fault with its keys or its kind. -/
def content (d : Document) (n : Node) : List (Except LoadFault Node) :=
  let n := d.resolve n
  match d.tag n, n with
  | .list, .list _ _ items => items.map .ok
  | .pairs, .list _ _ items => items.flatMap d.pairContent
  | .map, n => d.mapContent n
  | .set, n => d.mapContent n
  | _, _ => [.error .malformed]

/-- What is at fault when a collection is filled, without what is inside its parts. -/
def innerFault? (d : Document) (n : Node) : Option LoadFault :=
  (d.content n).findSome? fun
    | .error fault => some fault
    | .ok part => d.outerFault? part

/-- The collections that a collection is filled with. -/
def collections (d : Document) (n : Node) : List Node :=
  (d.content n).filterMap fun
    | .error _ => none
    | .ok part => if (d.tag part).isCollection then some part else none

/-- The nodes that have not been seen under their number, and all numbers seen. -/
def fresh (seen : List Nat) : List Node → List Node × List Nat
  | [] => ([], seen)
  | .ref id :: r =>
    if seen.contains id then fresh seen r
    else
      let more := fresh (id :: seen) r
      (.ref id :: more.1, more.2)
  | n :: r =>
    let more := fresh seen r
    (n :: more.1, more.2)

/-- The first fault of some collections, level by level. -/
def levelFault? (d : Document) : Nat → List Nat → List Node → Option LoadFault
  | 0, _, _ => none
  | _, _, [] => none
  | n + 1, seen, level =>
    match level.findSome? d.innerFault? with
    | some fault => some fault
    | none =>
      let next := fresh seen (level.flatMap d.collections)
      d.levelFault? n next.2 next.1

/-- The first fault of a document. -/
def fault? (d : Document) : Option LoadFault :=
  match d.outerFault? d.root with
  | some fault => some fault
  | none =>
    if (d.tag d.root).isCollection then
      let first := fresh [] [d.root]
      d.levelFault? d.size first.2 first.1
    else none

end Document

end Drydock.Yaml
