import Drydock.Engine.Basic

set_option autoImplicit false
set_option relaxedAutoImplicit false

/-!
What containers leave in the files of the channel. Main statements: a deed that is possible changes
what its file holds as if the file were always there, and after files are collected they are blank and
what is collected is the assignments in what they held.
-/

namespace Drydock

namespace FileState

/-- The bytes of a file; one that is absent has none. -/
def content : FileState → List UInt8
  | .holds bytes => bytes
  | _ => []

/-- A file is absent or empty. -/
def IsBlank (s : FileState) : Prop :=
  s = .absent ∨ s = .holds []

variable {s s' : FileState} {path : String}

theorem IsBlank.content (blank : s.IsBlank) : s.content = [] := by
  rcases blank with rfl | rfl <;> rfl

theorem parse_of_no_bytes : Assignments.parse (textOf []) = ∅ := by
  decide +kernel

@[simp] theorem content_ensure (s : FileState) : s.ensure.content = s.content := by
  cases s <;> rfl

theorem content_of_write {bytes : List UInt8} (written : s.write path bytes = .ok s') :
    s'.content = bytes := by
  cases s <;> cases written <;> rfl

theorem content_of_append {bytes : List UInt8} (written : s.append path bytes = .ok s') :
    s'.content = s.content ++ bytes := by
  cases s <;> cases written <;> rfl

theorem content_of_remove (removed : s.remove path = .ok s') : s'.content = [] := by
  cases s <;> cases removed
  rfl

theorem drain_eq_ok {values : Bindings String}
    (drained : s.drain path = .ok (s', values)) :
    s'.IsBlank ∧ values = Assignments.parse (textOf s.content) := by
  cases s with
  | absent =>
    cases drained
    exact ⟨.inl rfl, parse_of_no_bytes.symm⟩
  | holds bytes =>
    cases drained
    exact ⟨.inr rfl, rfl⟩
  | directory => cases drained

end FileState

namespace Channel

variable {c c' : Channel}

/-- Both files are absent or empty. -/
def IsBlank (c : Channel) : Prop :=
  ∀ slot, (c.get slot).IsBlank

@[simp] theorem get_set (c : Channel) (slot : Slot) (s : FileState) : (c.set slot s).get slot = s := by
  cases slot <;> rfl

theorem get_set_of_ne {slot other : Slot} (ne : other ≠ slot) (c : Channel) (s : FileState) :
    (c.set slot s).get other = c.get other := by
  cases slot <;> cases other <;> first | rfl | exact absurd rfl ne

@[simp] theorem get_ensureFiles (c : Channel) (slot : Slot) :
    c.ensureFiles.get slot = (c.get slot).ensure := by
  cases slot <;> rfl

theorem isBlank_opened (directory : String) : (opened directory).IsBlank := by
  intro slot
  cases slot <;> exact .inr rfl

/-- The assignments in bytes that files hold. -/
def assignments (bytes : Slot → List UInt8) : Collected where
  env := Assignments.parse (FileState.textOf (bytes .env))
  outputs := Assignments.parse (FileState.textOf (bytes .output))

theorem drain_eq_ok {slot : Slot} {values : Bindings String} (drained : c.drain slot = (c', .ok values)) :
    (∃ s, c' = c.set slot s ∧ s.IsBlank) ∧
      values = Assignments.parse (FileState.textOf (c.get slot).content) := by
  unfold drain at drained
  split at drained
  · rename_i s values' ran
    cases drained
    obtain ⟨blank, same⟩ := FileState.drain_eq_ok ran
    exact ⟨⟨s, rfl, blank⟩, same⟩
  · cases drained

theorem collect_eq_ok {values : Collected} (collected : c.collect = (c', .ok values)) :
    c'.IsBlank ∧ values = assignments fun slot => (c.get slot).content := by
  unfold collect at collected
  split at collected
  · cases collected
  rename_i c₁ env first
  split at collected
  · cases collected
  rename_i c₂ outputs second
  cases collected
  obtain ⟨⟨s₁, rfl, blank₁⟩, rfl⟩ := drain_eq_ok first
  obtain ⟨⟨s₂, rfl, blank₂⟩, rfl⟩ := drain_eq_ok second
  refine ⟨fun slot => ?_, rfl⟩
  cases slot with
  | env => exact blank₁
  | output => exact blank₂

end Channel

namespace Engine

/-- The bytes of a file after a deed to it, from those before. -/
def Deed.left (bytes : List UInt8) : Deed → List UInt8
  | .delete _ | .makeDirectory _ => []
  | .write _ new => new
  | .append _ new => bytes ++ new

/-- The bytes of a file after deeds, from those before. -/
def left (slot : Slot) (bytes : List UInt8) (deeds : List Deed) : List UInt8 :=
  (deeds.filter fun d => d.slot = slot).foldl Deed.left bytes

/-- What containers do in calls that come after others: what each does while it is waited for. -/
def deeds (e : Engine) : List Call → List Call → List Deed
  | _, [] => []
  | before, .wait name :: r =>
    (if e.refuses before (.wait name) = none then
        (e.behaviour (before ++ [.wait name]) name).deeds
      else []) ++ e.deeds (before ++ [.wait name]) r
  | before, c :: r => e.deeds (before ++ [c]) r

theorem deeds_append (e : Engine) (before first rest : List Call) :
    e.deeds before (first ++ rest) = e.deeds before first ++ e.deeds (before ++ first) rest := by
  induction first generalizing before with
  | nil => simp [deeds]
  | cons c r ih =>
    have next := ih (before ++ [c])
    rw [List.append_assoc, List.singleton_append] at next
    cases c <;> simp [deeds, next]

theorem deeds_singleton (e : Engine) (before : List Call) {c : Call} (other : ∀ name, c ≠ .wait name) :
    e.deeds before [c] = [] := by
  cases c with
  | wait name => exact absurd rfl (other name)
  | _ => rfl

theorem left_append (slot : Slot) (bytes : List UInt8) (first rest : List Deed) :
    left slot bytes (first ++ rest) = left slot (left slot bytes first) rest := by
  rw [left, List.filter_append, List.foldl_append]
  rfl

variable {c c' : Channel}

private theorem map_eq_ok {ε α β : Type} {f : α → β} {x : Except ε α} {b : β}
    (mapped : x.map f = .ok b) : ∃ a, x = .ok a ∧ b = f a := by
  cases x <;> cases mapped
  exact ⟨_, rfl, rfl⟩

/-- A deed that is possible puts its file into another state. -/
theorem Deed.set_of_apply {d : Deed} (done : d.apply c = .ok c') :
    ∃ s, c' = c.set d.slot s ∧ s.content = d.left (c.get d.slot).content := by
  cases d with
  | delete slot =>
    obtain ⟨s, removed, rfl⟩ := map_eq_ok done
    exact ⟨s, rfl, FileState.content_of_remove removed⟩
  | makeDirectory slot =>
    obtain ⟨c₁, removed, rfl⟩ := map_eq_ok done
    obtain ⟨s, -, rfl⟩ := map_eq_ok removed
    exact ⟨.directory, by cases slot <;> rfl, rfl⟩
  | write slot bytes =>
    obtain ⟨s, written, rfl⟩ := map_eq_ok done
    exact ⟨s, rfl, FileState.content_of_write written⟩
  | append slot bytes =>
    obtain ⟨s, written, rfl⟩ := map_eq_ok done
    exact ⟨s, rfl, FileState.content_of_append written⟩

/-- A deed that is possible changes the bytes of its file, and leaves the other file alone. -/
theorem Deed.content_of_apply {d : Deed} (done : d.apply c = .ok c') (slot : Slot) :
    (c'.get slot).content = Engine.left slot (c.get slot).content [d] := by
  obtain ⟨s, rfl, bytes⟩ := d.set_of_apply done
  by_cases same : d.slot = slot
  · subst same
    simp [Engine.left, bytes]
  · rw [Channel.get_set_of_ne (Ne.symm same)]
    simp [Engine.left, same]

end Engine

end Drydock
