import Drydock.Proofs.Yaml.Levels
import Drydock.Yaml.Load
import Mathlib

set_option autoImplicit false
set_option relaxedAutoImplicit false

/-!
The value of a document without faults beside its tree. Main statement: a document whose collections come
after those that end inside them has a value that shows its tree, with an entry for each entry of a mapping,
under different keys.
-/

namespace Drydock.Yaml

namespace Layout

variable {l : Layout} {id : Nat} {items : List Node} {entries : List (Node × Node)}

attribute [local simp] value

theorem value_of_scalar {n : Node} {s : Scalar} (found : l.scalar n = some s) : l.value n = .scalar s := by
  cases n <;> simp [found]

theorem value_list (none : l.scalar (.list id .list items) = none) :
    l.value (.list id .list items) = l.label id (.list (l.values items)) := by
  simp [none]

theorem value_pairs (none : l.scalar (.list id .pairs items) = none) :
    l.value (.list id .pairs items) = l.label id (.list (l.pairs items)) := by
  simp [none]

theorem value_map (none : l.scalar (.map id .map entries) = none) :
    l.value (.map id .map entries) = l.label id (.map (l.change id (l.fields entries))) := by
  simp [none]

theorem value_set (none : l.scalar (.map id .set entries) = none) :
    l.value (.map id .set entries) = l.label id (.set ((l.fields entries).map Prod.fst)) := by
  simp [none]

theorem value_ref (none : l.scalar (.ref id) = none) : l.value (.ref id) = (l.get id).value := by
  simp [none]

@[simp] theorem bare_label (l : Layout) (id : Nat) (v : Value) : (l.label id v).bare = v.bare := by
  unfold label
  split <;> rfl

theorem laid_add (l : Layout) (id : Nat) (n : Node) :
    ∃ pair, (l.add id n).laid = (id, ⟨l.value n, pair⟩) :: l.laid ∧
      ∀ id' tag k m, n = .map id' tag [(k, m)] → pair = l.firstPair [(k, m)] := by
  refine ⟨_, rfl, ?_⟩
  rintro id' tag k m rfl
  rfl

end Layout

namespace Document

mutual

/-- A value shows what a node says. A collection that is used inside itself is cut somewhere. -/
inductive Shows (d : Document) : Node → Value → Prop
  | scalar {n : Node} {s : Scalar} (kind : (d.tag n).isCollection = false) (value : d.scalar n = .ok s) :
    Shows d n (.scalar s)
  | list {n : Node} {v : Value} {id : Nat} {items : List Node} {vs : List Value}
      (list : d.resolve n = .list id .list items) (value : v.bare = .list vs)
      (each : ShowsItems d items vs) : Shows d n v
  | pairs {n : Node} {v : Value} {id : Nat} {items : List Node} {vs : List Value}
      (list : d.resolve n = .list id .pairs items) (value : v.bare = .list vs)
      (each : ShowsPairs d items vs) : Shows d n v
  | map {n : Node} {v : Value} {id : Nat} {entries : List (Node × Node)} {es : List (Scalar × Value)}
      (map : d.resolve n = .map id .map entries) (value : v.bare = .map es)
      (each : ShowsEntries d entries es) (apart : es.Pairwise fun e f => e.1.same f.1 = false) : Shows d n v
  | set {n : Node} {v : Value} {id : Nat} {entries : List (Node × Node)} {es : List (Scalar × Value)}
      (map : d.resolve n = .map id .set entries) (value : v.bare = .set (es.map Prod.fst))
      (each : ShowsEntries d entries es) (apart : es.Pairwise fun e f => e.1.same f.1 = false) : Shows d n v
  | cut {id : Nat} (loop : id ∈ d.loops) : Shows d (.ref id) .null

/-- Values show nodes, one by one. -/
inductive ShowsItems (d : Document) : List Node → List Value → Prop
  | nil : ShowsItems d [] []
  | cons {n : Node} {v : Value} {ns : List Node} {vs : List Value} (first : Shows d n v)
      (rest : ShowsItems d ns vs) : ShowsItems d (n :: ns) (v :: vs)

/-- Pairs show mappings of one entry, one by one. -/
inductive ShowsPairs (d : Document) : List Node → List Value → Prop
  | nil : ShowsPairs d [] []
  | cons {item k n : Node} {id : Nat} {tag : Tag} {a b : Value} {ns : List Node} {vs : List Value}
      (single : d.resolve item = .map id tag [(k, n)]) (key : Shows d k a) (value : Shows d n b)
      (rest : ShowsPairs d ns vs) : ShowsPairs d (item :: ns) (.pair a b :: vs)
  | cut {id : Nat} {ns : List Node} {vs : List Value} (loop : id ∈ d.loops) (rest : ShowsPairs d ns vs) :
    ShowsPairs d (.ref id :: ns) (.null :: vs)

/-- Entries show those of a mapping, one by one. -/
inductive ShowsEntries (d : Document) : List (Node × Node) → List (Scalar × Value) → Prop
  | nil : ShowsEntries d [] []
  | cons {k n : Node} {s : Scalar} {v : Value} {entries : List (Node × Node)} {es : List (Scalar × Value)}
      (key : d.keyScalar k = .ok s) (value : Shows d n v) (rest : ShowsEntries d entries es) :
    ShowsEntries d ((k, n) :: entries) ((s, v) :: es)

end

variable {d : Document} {n m : Node}

/-- A node whose value can be laid out. -/
structure IsReady (d : Document) (n : Node) : Prop where
  fits : d.Fits n
  apart : ∀ s, ¬ d.Repeats n s
  parts : ∀ p ∈ d.parts n, d.Holds p

/-- Every node of the document can be laid out. -/
def AllReady (d : Document) : Prop :=
  ∀ n, d.Holds n → d.IsReady n

theorem Fits.exists_scalar (fits : d.Fits n) (kind : (d.tag n).isCollection = false) :
    ∃ s, d.scalar n = .ok s := by
  rcases fits with ⟨-, value⟩ | list | ⟨list, -⟩ | keys
  · exact ⟨_, value⟩
  · rw [tag_of_resolve_list list] at kind
    cases kind
  · rw [tag_of_resolve_list list] at kind
    cases kind
  · rw [keys.isCollection] at kind
    cases kind

theorem textOf_congr (same : d.resolve n = d.resolve m) (fuel : Nat) :
    d.textOf fuel n = d.textOf fuel m := by
  cases fuel with
  | zero => rfl
  | succ fuel => rw [textOf, textOf, same]

theorem tag_congr (same : d.resolve n = d.resolve m) : d.tag n = d.tag m := by
  rw [Document.tag, Document.tag, same]

theorem scalar_congr (same : d.resolve n = d.resolve m) : d.scalar n = d.scalar m := by
  rw [Document.scalar, Document.scalar, textOf_congr same, tag_congr same, same]

theorem Keys.congr {keys : List (Node × Scalar)} (same : d.resolve n = d.resolve m)
    (found : d.Keys n keys) : d.Keys m keys := by
  obtain ⟨map, kind, nodes, scalars⟩ := found
  exact .map (same ▸ map) kind nodes scalars

/-- Whether a node is ready depends on what it stands for. -/
theorem IsReady.congr (same : d.resolve n = d.resolve m) (ready : d.IsReady n) : d.IsReady m := by
  obtain ⟨fits, apart, parts⟩ := ready
  refine ⟨?_, fun s repeated => ?_, ?_⟩
  · rcases fits with ⟨kind, value⟩ | list | ⟨list, single⟩ | keys
    · exact .scalar (tag_congr same ▸ kind) (scalar_congr same ▸ value)
    · exact .list (same ▸ list)
    · exact .pairs (same ▸ list) single
    · exact .map (keys.congr same)
  · obtain ⟨keys, earlier, alike, scalar⟩ := repeated
    exact apart s (.keys (keys.congr same.symm) earlier alike scalar)
  · rwa [Document.parts, ← same]

theorem pairwise_of_not_repeats {keys : List (Node × Scalar)} (found : d.Keys n keys)
    (apart : ∀ s, ¬ d.Repeats n s) : keys.Pairwise fun e f => e.2.same f.2 = false := by
  have scalars : ∀ e ∈ keys, d.keyScalar e.1 = .ok e.2 := by
    obtain ⟨-, -, -, scalars⟩ := found
    exact scalars
  rcases keyFault?_cases scalars [] with
    ⟨-, -, pairwise⟩ | ⟨front, again, back, rfl, ⟨first, earlier, same⟩, -⟩
  · refine pairwise.imp fun {e f} differ => ?_
    rw [isSameKey, Bool.or_eq_false_iff] at differ
    exact differ.1
  · exact absurd (.keys found (earlier.resolve_left List.not_mem_nil) same rfl) (apart again.2)

theorem Keys.exists_keyScalar {keys : List (Node × Scalar)} {entries : List (Node × Node)} {id : Nat}
    {tag : Tag} (found : d.Keys n keys) (map : d.resolve n = .map id tag entries) :
    ∀ e ∈ entries, ∃ s, d.keyScalar e.1 = .ok s := by
  obtain ⟨map', -, nodes, scalars⟩ := found
  cases map.symm.trans map'
  intro e member
  have key : e.1 ∈ keys.map Prod.fst := nodes ▸ List.mem_map_of_mem member
  obtain ⟨f, inKeys, same⟩ := List.mem_map.mp key
  exact ⟨f.2, same ▸ scalars f inKeys⟩

theorem IsReady.holds_values {entries : List (Node × Node)} {id : Nat} {tag : Tag} (ready : d.IsReady n)
    (map : d.resolve n = .map id tag entries) (kind : tag = .map ∨ tag = .set) :
    ∀ e ∈ entries, d.Holds e.2 := by
  intro e member
  refine ready.parts e.2 ?_
  rw [Document.parts, map]
  rcases kind with rfl | rfl <;> exact List.mem_map_of_mem member

theorem IsReady.holds_pairs {items : List Node} {id : Nat} (ready : d.IsReady n)
    (list : d.resolve n = .list id .pairs items)
    (single : ∀ item ∈ items, ∃ id tag k v, d.resolve item = .map id tag [(k, v)]) :
    ∀ item ∈ items, ∃ id tag k v, d.resolve item = .map id tag [(k, v)] ∧ d.Holds k ∧ d.Holds v := by
  intro item member
  obtain ⟨id', tag, k, v, map⟩ := single item member
  have inside : d.pairParts item = [k, v] := by
    rw [pairParts, map]
  have part (p : Node) (here : p ∈ d.pairParts item) : d.Holds p := by
    refine ready.parts p ?_
    rw [Document.parts, list]
    exact List.mem_flatMap.mpr ⟨item, member, here⟩
  exact ⟨id', tag, k, v, map, part k (by simp [inside]), part v (by simp [inside])⟩

/-- The value of a collection with an anchor, and its first entry as a pair, show it. -/
structure IsLaid (d : Document) (id : Nat) (laid : Laid) : Prop where
  value : d.IsReady (.ref id) → d.Shows (.ref id) laid.value
  pair : ∀ id' tag k n, d.resolve (.ref id) = .map id' tag [(k, n)] → d.Holds k → d.Holds n →
    ∃ a b, laid.pair = .pair a b ∧ d.Shows k a ∧ d.Shows n b

/-- What has been laid out shows the document. -/
structure IsLayout (d : Document) (l : Layout) : Prop where
  scalar : l.scalar = d.scalarAt
  change : ∀ id es, l.change id es = es
  laid : ∀ id x, l.laid.lookup id = some x → d.IsLaid id x

/-- What is used in some nodes has been laid out or is used inside itself. -/
def Covers (d : Document) (l : Layout) (ns : List Node) : Prop :=
  ∀ id, .ref id ∈ ns → (∃ x, l.laid.lookup id = some x) ∨ id ∈ d.loops

theorem Covers.mono {l : Layout} {ns ms : List Node} (covers : d.Covers l ns) (inside : ms ⊆ ns) :
    d.Covers l ms :=
  fun id member => covers id (inside member)

theorem scalarAt_of_scalar {s : Scalar} (kind : (d.tag n).isCollection = false)
    (value : d.scalar n = .ok s) : d.scalarAt n = some s := by
  rw [scalarAt, if_neg (by simp [kind]), value]
  rfl

theorem scalarAt_of_isCollection (kind : (d.tag n).isCollection = true) : d.scalarAt n = none := by
  rw [scalarAt, if_pos kind]

theorem scalarAt_of_keyScalar {s : Scalar} (key : d.keyScalar n = .ok s) : d.scalarAt n = some s := by
  unfold keyScalar at key
  split at key
  · cases key
  · rename_i kind
    exact scalarAt_of_scalar (by simpa using kind) key

theorem resolve_of_ne (own : ∀ id, n ≠ .ref id) : d.resolve n = n := by
  cases n with
  | ref id => exact absurd rfl (own id)
  | _ => rfl

/-- What shows a collection shows all that stands for it. -/
theorem Shows.congr {v : Value} (same : d.resolve n = d.resolve m) (own : ∀ id, n ≠ .ref id)
    (shows_ : d.Shows n v) : d.Shows m v := by
  cases shows_ with
  | scalar kind value => exact .scalar (tag_congr same ▸ kind) (scalar_congr same ▸ value)
  | list list value each => exact .list (same ▸ list) value each
  | pairs list value each => exact .pairs (same ▸ list) value each
  | map map value each apart => exact .map (same ▸ map) value each apart
  | set map value each apart => exact .set (same ▸ map) value each apart
  | cut loop => exact absurd rfl (own _)

section Laying

variable {l : Layout}

theorem IsLayout.scalar_eq_none (layout : d.IsLayout l) (kind : (d.tag n).isCollection = true) :
    l.scalar n = none := by
  rw [layout.scalar, scalarAt_of_isCollection kind]

theorem IsLayout.shows_scalar (layout : d.IsLayout l) {s : Scalar} (kind : (d.tag n).isCollection = false)
    (value : d.scalar n = .ok s) : d.Shows n (l.value n) := by
  rw [Layout.value_of_scalar (layout.scalar ▸ scalarAt_of_scalar kind value)]
  exact .scalar kind value

/-- The keys of a mapping are the names in its value. -/
theorem IsLayout.map_fst_fields (layout : d.IsLayout l) {keys : List (Node × Scalar)}
    {entries : List (Node × Node)} (nodes : entries.map Prod.fst = keys.map Prod.fst)
    (scalars : ∀ e ∈ keys, d.keyScalar e.1 = .ok e.2) :
    (l.fields entries).map Prod.fst = keys.map Prod.snd := by
  induction entries generalizing keys with
  | nil =>
    obtain rfl := List.map_eq_nil_iff.mp nodes.symm
    rfl
  | cons e rest ih =>
    obtain ⟨first, others, rfl, key, nodes⟩ := List.map_eq_cons_iff.mp nodes.symm
    have found : l.scalar e.1 = some first.2 := by
      rw [layout.scalar]
      exact scalarAt_of_keyScalar (key ▸ scalars first List.mem_cons_self)
    have later := ih nodes.symm fun e member => scalars e (List.mem_cons_of_mem _ member)
    rw [Layout.fields, found, List.map_cons, List.map_cons, later]

theorem IsLayout.pairwise_fields (layout : d.IsLayout l) {keys : List (Node × Scalar)}
    {entries : List (Node × Node)} (nodes : entries.map Prod.fst = keys.map Prod.fst)
    (scalars : ∀ e ∈ keys, d.keyScalar e.1 = .ok e.2)
    (apart : keys.Pairwise fun e f => e.2.same f.2 = false) :
    (l.fields entries).Pairwise fun e f => e.1.same f.1 = false := by
  have names : ((l.fields entries).map Prod.fst).Pairwise fun s t => s.same t = false := by
    rw [layout.map_fst_fields nodes scalars]
    exact List.pairwise_map.mpr apart
  exact List.pairwise_map.mp names

-- The inductions below are on nodes and stop at uses of collections: what is used has been laid out, and
-- shows its collection by the invariant of the layout, or it is used inside itself and is cut.
mutual

/-- The value laid out for a node shows it. -/
theorem shows_value (ready : d.AllReady) (n : Node) (layout : d.IsLayout l) (covers : d.Covers l n.all)
    (own : d.IsReady n) : d.Shows n (l.value n) := by
  cases n with
  | scalar id tag text =>
    rcases own.fits with ⟨kind, value⟩ | list | ⟨list, -⟩ | ⟨map, -, -, -⟩
    · exact layout.shows_scalar kind value
    · cases list
    · cases list
    · cases map
  | list id tag items =>
    have inside : Node.allItems items ⊆ (Node.list id tag items).all := List.subset_cons_self _ _
    rcases own.fits with ⟨kind, value⟩ | list | ⟨list, single⟩ | ⟨map, -, -, -⟩
    · exact layout.shows_scalar kind value
    · cases list
      rw [Layout.value_list (layout.scalar_eq_none rfl)]
      exact .list rfl (l.bare_label id _) (shows_values ready items layout (covers.mono inside) own.parts)
    · cases list
      rw [Layout.value_pairs (layout.scalar_eq_none rfl)]
      have held := own.holds_pairs rfl single
      exact .pairs rfl (l.bare_label id _) (shows_pairs ready items layout (covers.mono inside) held)
    · cases map
  | map id tag entries =>
    have inside : Node.allEntries entries ⊆ (Node.map id tag entries).all := List.subset_cons_self _ _
    rcases own.fits with ⟨kind, value⟩ | list | ⟨list, -⟩ | @⟨keys, found⟩
    · exact layout.shows_scalar kind value
    · cases list
    · cases list
    · have pairwise := pairwise_of_not_repeats found own.apart
      have scalar := found.exists_keyScalar rfl
      obtain ⟨map, kind, nodes, scalars⟩ := found
      cases map
      have apart := layout.pairwise_fields nodes scalars pairwise
      have held := own.holds_values rfl kind
      have each := shows_fields ready entries layout (covers.mono inside) scalar held
      rcases kind with rfl | rfl
      · rw [Layout.value_map (layout.scalar_eq_none rfl), layout.change]
        exact .map rfl (l.bare_label id _) each apart
      · rw [Layout.value_set (layout.scalar_eq_none rfl)]
        exact .set rfl (l.bare_label id _) each apart
  | ref id =>
    by_cases kind : (d.tag (.ref id)).isCollection = true
    · rw [Layout.value_ref (layout.scalar_eq_none kind), Layout.get]
      cases known : l.laid.lookup id with
      | some x => exact (layout.laid id x known).value own
      | none => exact .cut ((covers id (Node.mem_all_self _)).resolve_left (by simp [known]))
    · obtain ⟨s, value⟩ := own.fits.exists_scalar (Bool.not_eq_true _ ▸ kind)
      exact layout.shows_scalar (Bool.not_eq_true _ ▸ kind) value
termination_by structural n

theorem shows_values (ready : d.AllReady) (ns : List Node) (layout : d.IsLayout l)
    (covers : d.Covers l (Node.allItems ns)) (held : ∀ n ∈ ns, d.Holds n) :
    d.ShowsItems ns (l.values ns) := by
  cases ns with
  | nil => exact .nil
  | cons n rest =>
    have first : n.all ⊆ Node.allItems (n :: rest) := List.subset_append_left _ _
    have others : Node.allItems rest ⊆ Node.allItems (n :: rest) := List.subset_append_right _ _
    obtain ⟨here, held⟩ := List.forall_mem_cons.mp held
    refine .cons (shows_value ready n layout (covers.mono first) (ready n here)) ?_
    exact shows_values ready rest layout (covers.mono others) held
termination_by structural ns

theorem shows_pairs (ready : d.AllReady) (ns : List Node) (layout : d.IsLayout l)
    (covers : d.Covers l (Node.allItems ns))
    (held : ∀ item ∈ ns, ∃ id tag k n, d.resolve item = .map id tag [(k, n)] ∧ d.Holds k ∧ d.Holds n) :
    d.ShowsPairs ns (l.pairs ns) := by
  cases ns with
  | nil => exact .nil
  | cons item rest =>
    have first : item.all ⊆ Node.allItems (item :: rest) := List.subset_append_left _ _
    have others : Node.allItems rest ⊆ Node.allItems (item :: rest) := List.subset_append_right _ _
    obtain ⟨⟨id, tag, k, n, single, key, value⟩, held⟩ := List.forall_mem_cons.mp held
    have later := shows_pairs ready rest layout (covers.mono others) held
    cases item with
    | scalar id' tag' text => cases single
    | list id' tag' items => cases single
    | map id' tag' entries =>
      have whole : entries = [(k, n)] := by
        cases single
        rfl
      have inside : d.Covers l (Node.allEntries entries) :=
        (covers.mono first).mono (List.subset_cons_self _ _)
      obtain ⟨a, b, pair, showsKey, showsValue⟩ :=
        shows_firstPair ready entries layout inside whole key value
      rw [Layout.pairs, pair]
      exact .cons single showsKey showsValue later
    | ref id' =>
      rw [Layout.pairs, Layout.get]
      cases known : l.laid.lookup id' with
      | some x =>
        obtain ⟨a, b, pair, showsKey, showsValue⟩ :=
          (layout.laid id' x known).pair id tag k n single key value
        rw [Option.getD_some, pair]
        exact .cons single showsKey showsValue later
      | none =>
        refine .cut ?_ later
        refine (covers id' (first (Node.mem_all_self _))).resolve_left ?_
        simp [known]
termination_by structural ns

theorem shows_firstPair (ready : d.AllReady) (entries : List (Node × Node)) (layout : d.IsLayout l)
    (covers : d.Covers l (Node.allEntries entries)) {k n : Node} (whole : entries = [(k, n)])
    (key : d.Holds k) (value : d.Holds n) :
    ∃ a b, l.firstPair entries = .pair a b ∧ d.Shows k a ∧ d.Shows n b := by
  cases entries with
  | nil => cases whole
  | cons e rest =>
    obtain ⟨k', n'⟩ := e
    obtain ⟨rfl, rfl⟩ := Prod.mk.inj (List.cons.inj whole).1
    have keyAll : k'.all ⊆ Node.allEntries ((k', n') :: rest) :=
      fun m inside => Node.mem_allEntries List.mem_cons_self (.inl inside)
    have valueAll : n'.all ⊆ Node.allEntries ((k', n') :: rest) :=
      fun m inside => Node.mem_allEntries List.mem_cons_self (.inr inside)
    have showsKey := shows_value ready k' layout (covers.mono keyAll) (ready k' key)
    have showsValue := shows_value ready n' layout (covers.mono valueAll) (ready n' value)
    exact ⟨l.value k', l.value n', rfl, showsKey, showsValue⟩
termination_by structural entries

theorem shows_fields (ready : d.AllReady) (entries : List (Node × Node)) (layout : d.IsLayout l)
    (covers : d.Covers l (Node.allEntries entries)) (keys : ∀ e ∈ entries, ∃ s, d.keyScalar e.1 = .ok s)
    (held : ∀ e ∈ entries, d.Holds e.2) : d.ShowsEntries entries (l.fields entries) := by
  cases entries with
  | nil => exact .nil
  | cons e rest =>
    obtain ⟨k, n⟩ := e
    have first : n.all ⊆ Node.allEntries ((k, n) :: rest) :=
      fun m inside => Node.mem_allEntries List.mem_cons_self (.inr inside)
    have others : Node.allEntries rest ⊆ Node.allEntries ((k, n) :: rest) := List.subset_append_right _ _
    obtain ⟨⟨s, key⟩, keys⟩ := List.forall_mem_cons.mp keys
    obtain ⟨here, held⟩ := List.forall_mem_cons.mp held
    rw [Layout.fields, layout.scalar, scalarAt_of_keyScalar key]
    refine .cons key (shows_value ready n layout (covers.mono first) (ready n here)) ?_
    exact shows_fields ready rest layout (covers.mono others) keys held
termination_by structural entries

end

/-- A collection with an anchor is laid out around those that it uses. -/
theorem IsLayout.add (ready : d.AllReady) (layout : d.IsLayout l) {id : Nat} (covers : d.Covers l n.all)
    (own : ∀ other, n ≠ .ref other) (found : d.anchored.lookup id = some n) : d.IsLayout (l.add id n) := by
  have same : d.resolve n = d.resolve (.ref id) := by
    rw [resolve_of_ne own, resolve, found]
    rfl
  obtain ⟨pair, laid, first⟩ := Layout.laid_add l id n
  refine ⟨layout.scalar, layout.change, fun id' x known => ?_⟩
  rw [laid, List.lookup_cons] at known
  split at known
  · rename_i here
    obtain rfl : id' = id := by simpa using here
    obtain rfl := Option.some.inj known
    refine ⟨fun ready' => ?_, fun id' tag k m single key value => ?_⟩
    · exact (shows_value ready n layout covers (ready'.congr same.symm)).congr same own
    · have whole : n = .map id' tag [(k, m)] := by
        rw [← single, ← same, resolve_of_ne own]
      subst whole
      rw [first id' tag k m rfl]
      exact shows_firstPair ready _ layout (covers.mono (List.subset_cons_self _ _)) rfl key value
  · exact layout.laid id' x known

theorem lookup_of_nodup {es : List (Nat × Node)} (nodup : (es.map Prod.fst).Nodup) {e : Nat × Node}
    (member : e ∈ es) : es.lookup e.1 = some e.2 := by
  induction es with
  | nil => cases member
  | cons first rest ih =>
    obtain ⟨new, others⟩ := List.nodup_cons.mp nodup
    rw [List.lookup_cons]
    rcases List.mem_cons.mp member with rfl | later
    · simp
    · have apart : (e.1 == first.1) = false := by
        refine beq_eq_false_iff_ne.mpr fun same => new ?_
        exact same ▸ List.mem_map_of_mem later
      rw [apart]
      exact ih others later

/-- The collections with anchors are laid out one around another. -/
theorem IsLayout.foldr_add (ready : d.AllReady) (layout : d.IsLayout l)
    {stack : List (Nat × Node)} (stacked : Stacked d.loops stack)
    (found : ∀ e ∈ stack, d.anchored.lookup e.1 = some e.2) :
    d.IsLayout (stack.foldr (fun e l => l.add e.1 e.2) l) ∧
      ∀ id ∈ stack.map Prod.fst,
        ∃ x, (stack.foldr (fun e l => l.add e.1 e.2) l).laid.lookup id = some x := by
  induction stacked with
  | nil => exact ⟨layout, fun id none => by cases none⟩
  | @cons id n rest new own uses _ ih =>
    obtain ⟨made, known⟩ := ih fun e member => found e (List.mem_cons_of_mem _ member)
    have covers : d.Covers (rest.foldr (fun e l => l.add e.1 e.2) l) n.all :=
      fun other member => (uses other member).imp_left (known other)
    refine ⟨made.add ready covers own (found (id, n) List.mem_cons_self), fun other member => ?_⟩
    obtain ⟨pair, laid, -⟩ := Layout.laid_add (rest.foldr (fun e l => l.add e.1 e.2) l) id n
    rw [List.foldr_cons, laid, List.lookup_cons]
    split
    · exact ⟨_, rfl⟩
    · rename_i apart
      exact known other ((List.mem_cons.mp member).resolve_left (by simpa using apart))

theorem IsLayout.addAll (ready : d.AllReady) (layered : d.IsLayered) (layout : d.IsLayout l) (n : Nat) :
    d.IsLayout (l.addAll d.anchored (n + 1)) ∧
      ∀ id ∈ d.anchored.map Prod.fst, ∃ x, (l.addAll d.anchored (n + 1)).laid.lookup id = some x := by
  have once {l : Layout} (layout : d.IsLayout l) :
      d.IsLayout (d.anchored.foldl (fun l e => l.add e.1 e.2) l) ∧
        ∀ id ∈ d.anchored.map Prod.fst,
          ∃ x, (d.anchored.foldl (fun l e => l.add e.1 e.2) l).laid.lookup id = some x := by
    have nodup : (d.anchored.map Prod.fst).Nodup := by
      simpa using layered.stacked.nodup
    have round := layout.foldr_add ready layered.stacked fun e member =>
      lookup_of_nodup nodup (List.mem_reverse.mp member)
    simpa using round
  induction n generalizing l with
  | zero => exact once layout
  | succ n ih => exact ih (once layout).1

end Laying

/-- The value of a document without faults shows it. -/
theorem shows_root (layered : d.IsLayered) (ready : d.AllReady) : d.Shows d.root (d.value id) := by
  have start : d.IsLayout ⟨d.scalarAt, [], !d.loops.isEmpty,
      fun i es => if d.rootId? = some i then id es else es⟩ :=
    ⟨rfl, fun i es => ite_self _, fun i x none => by cases none⟩
  obtain ⟨n, rounds⟩ : ∃ n, d.rounds = n + 1 := by
    refine Nat.exists_eq_succ_of_ne_zero ?_
    unfold rounds
    split <;> omega
  obtain ⟨layout, known⟩ := start.addAll ready layered n
  have covers : d.Covers _ d.root.all := fun i member => (layered.root i member).imp_left (known i)
  rw [value, rounds]
  exact shows_value ready d.root layout covers (ready d.root .root)

/-- A document of which every node is what its tag says has a value exactly if no mapping of it repeats a
key, and a repeated key is what is at fault otherwise. -/
theorem load_cases (fits : ∀ n, d.Holds n → d.Fits n)
    (change : List (Scalar × Value) → List (Scalar × Value)) :
    (d.AllReady ∧ d.load change = .ok (d.value change)) ∨
      ∃ n s, d.Holds n ∧ d.Repeats n s ∧ d.load change = .error (.ofRepeated s) := by
  unfold load
  rcases fault?_cases fits with ⟨none, apart⟩ | ⟨n, s, holds, repeated, some⟩
  · rw [none]
    exact .inl ⟨fun n holds => ⟨fits n holds, apart n holds, fun p part => .part holds part⟩, rfl⟩
  · rw [some]
    exact .inr ⟨n, s, holds, repeated, rfl⟩

end Document

end Drydock.Yaml
