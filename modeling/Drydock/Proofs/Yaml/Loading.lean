import Drydock.Proofs.Traversal
import Drydock.Proofs.Yaml.Nodes
import Drydock.Proofs.Yaml.Values
import Mathlib

set_option autoImplicit false
set_option relaxedAutoImplicit false

/-!
Texts that are loaded. Main statement: a text whose nodes are what their tags say fails to load exactly if
some mapping of it, at any depth, repeats a key; and if it loads, then each mapping of the value has the
entries of the one in the text.
-/

namespace Drydock.Yaml

/-- A text writes a document. -/
def Writes (text : String) (d : Document) : Prop :=
  ∃ tokens, tokens? text.toList = some tokens ∧ obstacle? tokens = none ∧ document? tokens = some (some d)

instance (text : String) (d : Document) : Decidable (Writes text d) :=
  match lexed : tokens? text.toList with
  | none => .isFalse (by simp [Writes, lexed])
  | some tokens =>
    decidable_of_iff (obstacle? tokens = none ∧ document? tokens = some (some d)) (by simp [Writes, lexed])

namespace Document

variable {d : Document} {n : Node} {v : Value}

theorem ShowsEntries.length_eq {entries : List (Node × Node)} {es : List (Scalar × Value)}
    (each : d.ShowsEntries entries es) : es.length = entries.length := by
  induction entries generalizing es with
  | nil =>
    cases each
    rfl
  | cons e rest ih =>
    cases each with
    | cons key value others => exact congrArg (· + 1) (ih others)

/-- A map that is shown stands for a mapping with as many entries, under keys that differ. -/
theorem Shows.of_bare_eq_map {es : List (Scalar × Value)} (shows_ : d.Shows n v) (map : v.bare = .map es) :
    ∃ id entries, d.resolve n = .map id .map entries ∧ es.length = entries.length ∧
      es.Pairwise fun e f => e.1.same f.1 = false := by
  cases shows_ with
  | scalar kind value => cases map
  | list list value each => cases map.symm.trans value
  | pairs list value each => cases map.symm.trans value
  | map resolved value each apart =>
    cases map.symm.trans value
    exact ⟨_, _, resolved, each.length_eq, apart⟩
  | set resolved value each apart => cases map.symm.trans value
  | cut loop => cases map

end Document

variable {text : String} {d : Document}

theorem load_of_writes (writes : Writes text d) (change : List (Scalar × Value) → List (Scalar × Value)) :
    load change text = d.load change := by
  obtain ⟨tokens, lexed, free, read⟩ := writes
  simp [load, lexed, free, read, bind, Except.bind]

/-- A scalar is what its tag makes of its text. -/
theorem Document.keyScalar_of_scalarOf {tag : Tag} {text : String} {s : Scalar} (id : Nat)
    (kind : tag.isCollection = false) (made : scalarOf tag text = some (.ok s)) :
    d.keyScalar (.scalar id tag text) = .ok s := by
  have nonempty : d.size ≠ 0 := by
    rw [← length_nodes, nodes, List.length_append]
    have root := List.length_pos_of_mem (Node.mem_all_self d.root)
    omega
  obtain ⟨n, size⟩ := Nat.exists_eq_succ_of_ne_zero nonempty
  have single : d.tag (.scalar id tag text) = tag := rfl
  have own : d.textOf d.size (.scalar id tag text) = some text := by
    rw [size]
    rfl
  rw [keyScalar, single, if_neg (by simp [kind]), scalar, own, single]
  simp only [resolve, made]
  rfl

theorem Document.keyScalar_text (id : Nat) (s : String) :
    d.keyScalar (.scalar id .text s) = .ok (.text s) :=
  keyScalar_of_scalarOf id rfl rfl

theorem Document.fits_text (id : Nat) (s : String) : d.Fits (.scalar id .text s) :=
  .scalar rfl (keyScalar_text id s)

/-- A mapping that stands twice in a list. -/
def Document.shared (entries : List (Node × Node)) : Document :=
  .of (.map 0 .map [(.scalar 1 .text "a", .list 2 .list [.ref 3, .ref 3])]) [(3, .map 3 .map entries)] []

theorem Document.fits_shared {entries : List (Node × Node)} {keys : List (Node × Scalar)}
    (found : (shared entries).Keys (.ref 3) keys)
    (values : ∀ e ∈ entries, ∃ id s, e.2 = .scalar id .text s) :
    ∀ n, (shared entries).Holds n → (shared entries).Fits n := by
  have among (n : Node) (holds : (shared entries).Holds n) : n = (shared entries).root ∨
      n = .list 2 .list [.ref 3, .ref 3] ∨ n = .ref 3 ∨ ∃ id s, n = .scalar id .text s := by
    induction holds with
    | root => exact .inl rfl
    | part _ part ih =>
      rcases ih with rfl | rfl | rfl | ⟨id, s, rfl⟩
      · exact .inr (.inl (List.mem_singleton.mp part))
      · exact .inr (.inr (.inl (by simpa [parts, resolve] using part)))
      · obtain ⟨e, member, rfl⟩ := List.mem_map.mp part
        exact .inr (.inr (.inr (values e member)))
      · cases part
  intro n holds
  rcases among n holds with rfl | rfl | rfl | ⟨id, s, rfl⟩
  · have key : ∀ e ∈ [(Node.scalar 1 .text "a", Scalar.text "a")],
        (shared entries).keyScalar e.1 = .ok e.2 := by
      simp [keyScalar_text]
    exact .map (.map rfl (.inl rfl) rfl key)
  · exact .list rfl
  · exact .map found
  · exact fits_text id s

theorem integerOf_hex {digits : List Char} (plain : ∀ c ∈ digits, c ≠ '_') :
    integerOf ("0x" ++ String.ofList digits) = magnitudeOf ('0' :: 'x' :: digits) := by
  have characters : ("0x" ++ String.ofList digits).toList = '0' :: 'x' :: digits := by simp
  have kept : ('0' :: 'x' :: digits).filter (· ≠ '_') = '0' :: 'x' :: digits :=
    List.filter_eq_self.mpr (by simpa using plain)
  have front : unsigned ('0' :: 'x' :: digits) = '0' :: 'x' :: digits := rfl
  rw [integerOf, characters, kept]
  cases made : magnitudeOf ('0' :: 'x' :: digits) with
  | error fault => simp [front, made, bind, Except.bind]
  | ok n => simp [front, made, bind, Except.bind, pure, Except.pure]

/-- The digits of an integer in base sixteen that cannot be written in decimal. -/
def longDigits : List Char := List.replicate 3600 'f'

theorem integerOf_longDigits :
    ∃ n, integerOf ("0x" ++ String.ofList longDigits) = .ok n ∧ Number.isWritable n = false := by
  have plain (c : Char) (member : c ∈ longDigits) : c ≠ '_' := by
    rw [List.eq_of_mem_replicate member]
    decide
  have long : (magnitudeOf ('0' :: 'x' :: longDigits)).toOption.map (Number.isWritable ·) = some false := by
    decide +kernel
  rw [integerOf_hex plain]
  exact exists_of_map_toOption long

end Drydock.Yaml
