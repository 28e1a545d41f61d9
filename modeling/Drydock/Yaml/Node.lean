import Drydock.Yaml.Lexing
import Drydock.Yaml.Scalar

set_option autoImplicit false
set_option relaxedAutoImplicit false

/-!
From tokens to a tree of nodes, which are numbered. A collection with an anchor is put aside, and its
number stands for it wherever it is used, its own place and places inside it included; a scalar is
repeated with its number at its aliases. A stream holds at most one document.
-/

namespace Drydock.Yaml

/-- A node with what it is. -/
inductive Node
  | scalar (id : Nat) (tag : Tag) (text : String)
  | list (id : Nat) (tag : Tag) (items : List Node)
  | map (id : Nat) (tag : Tag) (entries : List (Node × Node))
  /-- The collection with a number. -/
  | ref (id : Nat)
  deriving Repr

/-- The node of nothing at all. -/
def Node.absent : Node := .scalar 0 .null ""

instance : Inhabited Node := ⟨.absent⟩

namespace Node

/-- The number of a node, which is that of the collection for a use of one. -/
def id : Node → Nat
  | scalar id _ _ => id
  | list id _ _ => id
  | map id _ _ => id
  | ref id => id

mutual

/-- A node and all nodes inside it. -/
def all : Node → List Node
  | scalar id tag text => [.scalar id tag text]
  | list id tag items => .list id tag items :: allItems items
  | map id tag entries => .map id tag entries :: allEntries entries
  | ref id => [.ref id]
termination_by structural n => n

/-- All nodes in a list. -/
def allItems : List Node → List Node
  | [] => []
  | n :: r => n.all ++ allItems r
termination_by structural ns => ns

/-- All nodes in a mapping. -/
def allEntries : List (Node × Node) → List Node
  | [] => []
  | (k, v) :: r => k.all ++ v.all ++ allEntries r
termination_by structural es => es

end

end Node

/-- What has been read, and what is left. -/
structure Reading where
  tokens : List Token
  /-- The expansions of handles. -/
  handles : List (String × String)
  /-- The nodes of anchors. -/
  anchors : List (String × Node)
  /-- The number of nodes. -/
  count : Nat
  /-- The collections with anchors that have been read, the last one first. -/
  anchored : List (Nat × Node)
  /-- The collections that are used inside themselves. -/
  loops : List Nat

namespace Reading

/-- Nothing has been read. -/
def start (tokens : List Token) (handles : List (String × String)) : Reading :=
  ⟨tokens, handles, [], 0, [], []⟩

/-- The next token. -/
def peek (r : Reading) : Option Token :=
  r.tokens.head?

/-- What is left after the next token. -/
def skip (r : Reading) : Reading :=
  { r with tokens := r.tokens.tail }

/-- The text is broken off here. -/
def isBroken (r : Reading) : Bool :=
  match r.tokens with
  | .obstacle _ :: _ => true
  | _ => false

/-- The next token is one of some. -/
def sees (r : Reading) (ts : List Token) : Bool :=
  r.peek.any fun t => ts.contains t

end Reading

/-- The anchor and the tag in front of a node. -/
structure Properties where
  anchor : Option String
  tag : Option String

/-- The full name of a tag. -/
def expandTag (r : Reading) (handle : Option String) (suffix : String) : Option String :=
  match handle with
  | none => some suffix
  | some h => (r.handles.lookup h).map (· ++ suffix)

/-- The properties of a node in either order. -/
def properties (r : Reading) : Option (Properties × Reading) :=
  match r.tokens with
  | .anchor a :: .tag h s :: rest => do
    return (⟨some a, some (← expandTag r h s)⟩, { r with tokens := rest })
  | .tag h s :: .anchor a :: rest => do
    return (⟨some a, some (← expandTag r h s)⟩, { r with tokens := rest })
  | .anchor a :: rest => some (⟨some a, none⟩, { r with tokens := rest })
  | .tag _ _ :: .obstacle o :: rest => some (⟨none, none⟩, { r with tokens := .obstacle o :: rest })
  | .tag h s :: rest => do
    return (⟨none, some (← expandTag r h s)⟩, { r with tokens := rest })
  | _ => some (⟨none, none⟩, r)

/-- The tag of a scalar: a lone exclamation mark asks for the tag of a plain scalar. -/
def Properties.scalarTag (p : Properties) (plain : Bool) (text : String) : Tag :=
  match p.tag with
  | none => if plain then implicitTag text else .text
  | some "!" => implicitTag text
  | some name => .ofName name

/-- The tag of a collection. -/
def Properties.collectionTag (p : Properties) (standard : Tag) : Tag :=
  match p.tag with
  | none | some "!" => standard
  | some name => .ofName name

/-- Makes a node known under its anchor. -/
def Properties.bind (p : Properties) (node : Node) (r : Reading) : Reading :=
  match p.anchor with
  | none => r
  | some a => { r with anchors := (a, node) :: r.anchors }

/-- A scalar, which is known under its anchor. -/
def Properties.leaf (p : Properties) (plain : Bool) (text : String) (r : Reading) : Node × Reading :=
  let made := Node.scalar r.count (p.scalarTag plain text) text
  (made, p.bind made { r with count := r.count + 1 })

/-- Begins a collection: its number, under which its anchor is known. -/
def Properties.start (p : Properties) (r : Reading) : Nat × Reading :=
  (r.count, p.bind (.ref r.count) { r with count := r.count + 1 })

/-- Ends a collection. One with an anchor is put aside. -/
def Properties.finish (p : Properties) (id : Nat) (made : Node) (r : Reading) : Node × Reading :=
  if p.anchor.isSome then (.ref id, { r with anchored := (id, made) :: r.anchored }) else (made, r)

/-- Notes that a node is used; a collection that has not ended is used inside itself. -/
def Reading.use (r : Reading) (node : Node) : Reading :=
  match node with
  | .ref id =>
    if (r.anchored.lookup id).isSome || r.loops.contains id then r
    else { r with loops := id :: r.loops }
  | _ => r

/-- The anchor is not in use. -/
def Properties.isFresh (p : Properties) (r : Reading) : Bool :=
  p.anchor.all fun a => (r.anchors.lookup a).isNone

/-- Where a node stands. -/
inductive Place
  /-- Inside a flow collection. -/
  | flow
  /-- Inside a block collection or a document. -/
  | block
  /-- The key or value of a block mapping, where a sequence needs no further indentation. -/
  | mapping
  deriving DecidableEq, Repr

mutual

/-- A node, with a bound on the steps. -/
def node : Nat → Place → Reading → Option (Node × Reading)
  | 0, _, _ => none
  | n + 1, place, r =>
    match r.peek with
    | some (.alias a) => do
      let found ← r.anchors.lookup a
      return (found, (r.use found).skip)
    | _ => do
      let (p, r) ← properties r
      if r.isBroken then some (.absent, r)
      else if !p.isFresh r then none
      else
        let (id, opened) := p.start r
        let list := fun (found : List Node × Reading) =>
          some (p.finish id (.list id (p.collectionTag .list) found.1) found.2)
        let map := fun (found : List (Node × Node) × Reading) =>
          some (p.finish id (.map id (p.collectionTag .map) found.1) found.2)
        match r.peek with
        | some .blockEntry =>
          if place = .mapping then list (← looseEntries n opened)
          else if p.anchor.isSome || p.tag.isSome then empty p r
          else none
        | some (.scalar plain text) => some (p.leaf plain text r.skip)
        | some .flowSequence => list (← flowItems n true opened.skip)
        | some .flowMapping => map (← flowEntries n true opened.skip)
        | some .blockSequence =>
          if place = .flow then (if p.anchor.isSome || p.tag.isSome then empty p r else none)
          else list (← blockItems n opened.skip)
        | some .blockMapping =>
          if place = .flow then (if p.anchor.isSome || p.tag.isSome then empty p r else none)
          else map (← blockEntries n opened.skip)
        | _ => if p.anchor.isSome || p.tag.isSome then empty p r else none
termination_by structural n => n

/-- The empty scalar behind properties. -/
def empty (p : Properties) (r : Reading) : Option (Node × Reading) :=
  some (p.leaf true "" r)

/-- A node, or nothing in front of some tokens. -/
def nodeUnless : Nat → Place → List Token → Reading → Option (Node × Reading)
  | 0, _, _, _ => none
  | n + 1, place, stops, r => if r.sees stops then some (.absent, r) else node n place r
termination_by structural n => n

/-- The items of a block sequence up to its end. -/
def blockItems : Nat → Reading → Option (List Node × Reading)
  | 0, _ => none
  | n + 1, r =>
    match r.peek with
    | some .blockEntry => do
      let (item, r) ← nodeUnless n .block [.blockEntry, .blockEnd] r.skip
      let (items, r) ← blockItems n r
      return (item :: items, r)
    | some .blockEnd => some ([], r.skip)
    | _ => if r.isBroken then some ([], r) else none
termination_by structural n => n

/-- The items of a sequence that is indented no further than the mapping around it. -/
def looseEntries : Nat → Reading → Option (List Node × Reading)
  | 0, _ => none
  | n + 1, r =>
    match r.peek with
    | some .blockEntry => do
      let (item, r) ← nodeUnless n .block [.blockEntry, .key, .value, .blockEnd] r.skip
      let (items, r) ← looseEntries n r
      return (item :: items, r)
    | _ => some ([], r)
termination_by structural n => n

/-- The entries of a block mapping up to its end. -/
def blockEntries : Nat → Reading → Option (List (Node × Node) × Reading)
  | 0, _ => none
  | n + 1, r =>
    match r.peek with
    | some .key => do
      let (key, r) ← nodeUnless n .mapping [.key, .value, .blockEnd] r.skip
      let (value, r) ← valueAfter n .mapping [.key, .value, .blockEnd] r
      let (entries, r) ← blockEntries n r
      return ((key, value) :: entries, r)
    | some .blockEnd => some ([], r.skip)
    | _ => if r.isBroken then some ([], r) else none
termination_by structural n => n

/-- The value behind its mark, or nothing. -/
def valueAfter : Nat → Place → List Token → Reading → Option (Node × Reading)
  | 0, _, _, _ => none
  | n + 1, place, stops, r =>
    if r.sees [.value] then nodeUnless n place stops r.skip else some (.absent, r)
termination_by structural n => n

/-- The items of a flow sequence up to its end. A pair stands for a mapping with one entry. -/
def flowItems : Nat → Bool → Reading → Option (List Node × Reading)
  | 0, _, _ => none
  | n + 1, first, r =>
    if r.sees [.flowSequenceEnd] then some ([], r.skip)
    else if r.isBroken then some ([], r)
    else if !first && !r.sees [.flowEntry] then none
    else
      let r := if first then r else r.skip
      if r.sees [.key] then do
        let (key, r) ← nodeUnless n .flow [.value, .flowEntry, .flowSequenceEnd] r.skip
        let (value, r) ← valueAfter n .flow [.flowEntry, .flowSequenceEnd] r
        let (items, rest) ← flowItems n false { r with count := r.count + 1 }
        return (.map r.count .map [(key, value)] :: items, rest)
      else if r.sees [.flowSequenceEnd] then some ([], r.skip)
      else do
        let (item, r) ← node n .flow r
        let (items, r) ← flowItems n false r
        return (item :: items, r)
termination_by structural n => n

/-- The entries of a flow mapping up to its end. -/
def flowEntries : Nat → Bool → Reading → Option (List (Node × Node) × Reading)
  | 0, _, _ => none
  | n + 1, first, r =>
    if r.sees [.flowMappingEnd] then some ([], r.skip)
    else if r.isBroken then some ([], r)
    else if !first && !r.sees [.flowEntry] then none
    else
      let r := if first then r else r.skip
      if r.sees [.key] then do
        let (key, r) ← nodeUnless n .flow [.value, .flowEntry, .flowMappingEnd] r.skip
        let (value, r) ← valueAfter n .flow [.flowEntry, .flowMappingEnd] r
        let (entries, r) ← flowEntries n false r
        return ((key, value) :: entries, r)
      else if r.sees [.flowMappingEnd] then some ([], r.skip)
      else do
        let (key, r) ← node n .flow r
        let (entries, r) ← flowEntries n false r
        return ((key, .absent) :: entries, r)
termination_by structural n => n

end

/-- The handles that need no directive. -/
def standardHandles : List (String × String) :=
  [("!", "!"), ("!!", "tag:yaml.org,2002:")]

/-- The directives in front of a document: at most one version, which has to be 1, and each handle
once. -/
def directives : List Token → Bool → List (String × String) →
    Option (List (String × String) × List Token)
  | .directive (.version major) :: r, seen, handles =>
    if seen || major ≠ 1 then none else directives r true handles
  | .directive (.handle name expansion) :: r, seen, handles =>
    if (handles.lookup name).isSome then none
    else directives r seen ((name, expansion) :: handles)
  | .directive .unknown :: r, seen, handles => directives r seen handles
  | ts, _, handles => some (handles ++ standardHandles, ts)

/-- A token ends a document that has no content. -/
def endsDocument : List Token → Bool
  | [] | .directive _ :: _ | .documentStart :: _ | .documentEnd :: _ => true
  | _ => false

/-- A document: its root, its collections with anchors, each after those that end inside it, the
numbers of those that are used inside themselves, and the number of nodes. -/
structure Document where
  root : Node
  anchored : List (Nat × Node)
  loops : List Nat
  size : Nat
  size_eq : size = (root.all ++ anchored.flatMap fun e => e.2.all).length

/-- A document with its nodes counted. -/
def Document.of (root : Node) (anchored : List (Nat × Node)) (loops : List Nat) : Document :=
  ⟨root, anchored, loops, _, rfl⟩

/-- The text is broken off in the lines before a document, if not right here. -/
def breaksBefore (tokens : List Token) : Bool :=
  match directives tokens false [] with
  | some (_, .obstacle _ :: _) => true
  | _ => false

/-- The document of a stream, or nothing if there is none. -/
def document? (tokens : List Token) : Option (Option Document) := do
  let fuel := 4 * tokens.length + 10
  let finish := fun (found : Node × Reading) => do
    let rest := found.2.tokens.dropWhile (· == .documentEnd)
    if rest.isEmpty || breaksBefore rest then
      return some (.of found.1 found.2.anchored.reverse found.2.loops)
    else none
  match tokens with
  | [] => return none
  | .directive _ :: _ | .documentStart :: _ =>
    let (handles, rest) ← directives tokens false []
    match rest with
    | .documentStart :: r =>
      let reading := Reading.start r handles
      if endsDocument r then finish (.absent, reading) else finish (← node fuel .block reading)
    | _ => if breaksBefore rest then return none else none
  | _ => finish (← node fuel .block (.start tokens standardHandles))

end Drydock.Yaml
