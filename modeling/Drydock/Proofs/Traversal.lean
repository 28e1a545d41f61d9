import Mathlib.Data.List.Forall2

set_option autoImplicit false
set_option relaxedAutoImplicit false

/-!
Reading a list item by item where an item may be refused. Main statements: a reading succeeds
exactly if every item is read, a reading that is refused is refused as one of its items, and two
readings whose items are refused alike are refused alike.
-/

namespace Drydock

variable {ε α β : Type}

theorem bind_eq_ok_iff {x : Except ε α} {f : α → Except ε β} {b : β} :
    x >>= f = .ok b ↔ ∃ a, x = .ok a ∧ f a = .ok b := by
  cases x <;> simp [bind, Except.bind]

theorem bind_eq_error_iff {x : Except ε α} {f : α → Except ε β} {e : ε} :
    x >>= f = .error e ↔ x = .error e ∨ ∃ a, x = .ok a ∧ f a = .error e := by
  cases x <;> simp [bind, Except.bind]

/-- What is computed from a result that there may be shows that there is one. -/
theorem exists_of_map_toOption {x : Except ε α} {f : α → β} {b : β}
    (computed : x.toOption.map f = some b) : ∃ a, x = .ok a ∧ f a = b := by
  cases x with
  | error fault => cases computed
  | ok a => exact ⟨a, rfl, Option.some.inj computed⟩

theorem eq_ok_of_toOption {x : Except ε α} {a : α} (computed : x.toOption = some a) : x = .ok a := by
  cases x with
  | error fault => cases computed
  | ok b => exact congrArg _ (Option.some.inj computed)

theorem mapError_eq_ok {ε' : Type} {x : Except ε α} {f : ε → ε'} {a : α} :
    x.mapError f = .ok a ↔ x = .ok a := by
  cases x <;> simp [Except.mapError]

/-- What follows a result matters only where there is one. -/
theorem bind_congr_ok {x : Except ε α} {f g : α → Except ε β}
    (same : ∀ a, x = .ok a → f a = g a) : x >>= f = x >>= g := by
  cases x with
  | error fault => rfl
  | ok a => exact same a rfl

theorem mapM_eq_ok_iff {f : α → Except ε β} {items : List α} {read : List β} :
    items.mapM f = .ok read ↔ List.Forall₂ (fun a b => f a = .ok b) items read := by
  induction items generalizing read with
  | nil =>
    rw [List.mapM_nil, List.forall₂_nil_left_iff]
    exact ⟨fun h => (Except.ok.inj h).symm, fun h => congrArg _ h.symm⟩
  | cons a r ih =>
    simp only [List.mapM_cons, bind_eq_ok_iff, ih, List.forall₂_cons_left_iff]
    constructor
    · rintro ⟨b, first, rest, others, same⟩
      exact ⟨b, rest, first, others, (Except.ok.inj same).symm⟩
    · rintro ⟨b, rest, first, others, rfl⟩
      exact ⟨b, first, rest, others, rfl⟩

theorem exists_mem_of_forall₂ {R : α → β → Prop} {items : List α} {read : List β}
    (related : List.Forall₂ R items read) {a : α} (member : a ∈ items) : ∃ b ∈ read, R a b := by
  induction related with
  | nil => cases member
  | @cons x y r s first rest ih =>
    rcases List.mem_cons.mp member with rfl | member
    · exact ⟨y, List.mem_cons_self, first⟩
    · obtain ⟨b, found, hb⟩ := ih member
      exact ⟨b, List.mem_cons_of_mem _ found, hb⟩

theorem exists_getElem?_of_forall₂ {R : α → β → Prop} {first rest : List α} {a : α} {read : List β}
    (related : List.Forall₂ R (first ++ a :: rest) read) :
    ∃ b, read[first.length]? = some b ∧ R a b := by
  induction first generalizing read with
  | nil =>
    obtain ⟨b, others, head, -, rfl⟩ := List.forall₂_cons_left_iff.mp related
    exact ⟨b, rfl, head⟩
  | cons x r ih =>
    obtain ⟨y, others, -, tail, rfl⟩ := List.forall₂_cons_left_iff.mp related
    exact ih tail

/-- An item of two lists one after the other stands in the first or in the second. -/
theorem append_eq_append_cons {first rest before after : List α} {a : α}
    (split : first ++ rest = before ++ a :: after) :
    (∃ more, first = before ++ a :: more ∧ after = more ++ rest) ∨
      ∃ more, before = first ++ more ∧ rest = more ++ a :: after := by
  rcases List.append_eq_append_iff.mp split with ⟨more, same, later⟩ | ⟨more, same, later⟩
  · exact .inr ⟨more, same, later⟩
  · rcases List.cons_eq_append_iff.mp later with ⟨rfl, next⟩ | ⟨more, rfl, next⟩
    · exact .inr ⟨[], by simpa using same.symm, next⟩
    · exact .inl ⟨more, same, next⟩

theorem mapM_congr {f g : α → Except ε β} {items : List α} (same : ∀ a ∈ items, f a = g a) :
    items.mapM f = items.mapM g := by
  induction items with
  | nil => rfl
  | cons a r ih =>
    rw [List.mapM_cons, List.mapM_cons, same a List.mem_cons_self,
      ih fun x member => same x (List.mem_cons_of_mem _ member)]

theorem mapM_eq_error {f : α → Except ε β} {items : List α} {e : ε}
    (refused : items.mapM f = .error e) : ∃ a ∈ items, f a = .error e := by
  induction items with
  | nil => cases refused
  | cons a r ih =>
    rw [List.mapM_cons, bind_eq_error_iff] at refused
    rcases refused with first | ⟨b, -, rest⟩
    · exact ⟨a, List.mem_cons_self, first⟩
    · rcases bind_eq_error_iff.mp rest with others | ⟨bs, -, impossible⟩
      · obtain ⟨x, member, hx⟩ := ih others
        exact ⟨x, List.mem_cons_of_mem _ member, hx⟩
      · cases impossible

/-- A step may be replaced where it is not refused in one way, if what follows may be. -/
theorem bind_eq_of_ne_error {x x' : Except ε α} {f f' : α → Except ε β} {e : ε}
    (first : x ≠ .error e → x' = x) (next : ∀ a, f a ≠ .error e → f' a = f a)
    (accepted : x >>= f ≠ .error e) : x' >>= f' = x >>= f := by
  cases x with
  | error fault =>
    have other : (.error fault : Except ε α) ≠ .error e := by
      rintro ⟨⟩
      exact accepted rfl
    rw [first other]
    rfl
  | ok a =>
    rw [first (by simp)]
    exact next a accepted

theorem mapM_eq_of_ne_error {f f' : α → Except ε β} {items : List α} {e : ε}
    (each : ∀ a ∈ items, f a ≠ .error e → f' a = f a) (accepted : items.mapM f ≠ .error e) :
    items.mapM f' = items.mapM f := by
  induction items with
  | nil => rfl
  | cons a r ih =>
    rw [List.mapM_cons] at accepted ⊢
    rw [List.mapM_cons]
    refine bind_eq_of_ne_error (each a List.mem_cons_self) (fun b => ?_) accepted
    refine bind_eq_of_ne_error (ih fun x member => each x (List.mem_cons_of_mem _ member)) ?_
    exact fun _ _ => rfl

theorem exists_mapM_eq_ok_iff {f : α → Except ε β} {items : List α} :
    (∃ read, items.mapM f = .ok read) ↔ ∀ a ∈ items, ∃ b, f a = .ok b := by
  constructor
  · rintro ⟨read, whole⟩ a member
    obtain ⟨b, -, same⟩ := exists_mem_of_forall₂ (mapM_eq_ok_iff.mp whole) member
    exact ⟨b, same⟩
  · intro each
    cases whole : items.mapM f with
    | ok read => exact ⟨read, rfl⟩
    | error e =>
      obtain ⟨a, member, refused⟩ := mapM_eq_error whole
      obtain ⟨b, same⟩ := each a member
      cases refused.symm.trans same

/-- Two readings are refused alike, or what they read is related. -/
inductive Abreast {α' : Type} (R : α → α' → Prop) : Except ε α → Except ε α' → Prop
  | ok {a : α} {a' : α'} (related : R a a') : Abreast R (.ok a) (.ok a')
  | error (e : ε) : Abreast R (.error e) (.error e)

namespace Abreast

variable {α' β' : Type} {R : α → α' → Prop} {S : β → β' → Prop} {x : Except ε α} {x' : Except ε α'}

theorem bind {f : α → Except ε β} {f' : α' → Except ε β'} (first : Abreast R x x')
    (next : ∀ a a', R a a' → Abreast S (f a) (f' a')) : Abreast S (x >>= f) (x' >>= f') := by
  cases first with
  | ok related => exact next _ _ related
  | error e => exact .error e

theorem mapM {f : α → Except ε β} {f' : α' → Except ε β'} {items : List α} {items' : List α'}
    (each : List.Forall₂ (fun a a' => Abreast S (f a) (f' a')) items items') :
    Abreast (List.Forall₂ S) (items.mapM f) (items'.mapM f') := by
  induction each with
  | nil => exact .ok .nil
  | cons first _ ih =>
    rw [List.mapM_cons, List.mapM_cons]
    refine first.bind fun b b' related => ?_
    exact ih.bind fun bs bs' others => .ok (.cons related others)

theorem of_eq {y : Except ε α} (same : x = y) : Abreast (· = ·) x y := by
  subst same
  cases x with
  | ok a => exact .ok rfl
  | error e => exact .error e

end Abreast

section Filter

variable (f : α → β) (p : β → Except ε Bool) (items : List α)

theorem filterAuxM_cases (kept : List β) :
    (∃ e, ∃ a ∈ items, p (f a) = .error e ∧ (items.map f).filterAuxM p kept = .error e) ∨
    ((∀ a ∈ items, ∃ b, p (f a) = .ok b) ∧
      ∃ chosen : List α, chosen.Sublist items ∧ (∀ a, a ∈ chosen ↔ a ∈ items ∧ p (f a) = .ok true) ∧
        (items.map f).filterAuxM p kept = .ok ((chosen.map f).reverse ++ kept)) := by
  induction items generalizing kept with
  | nil => exact .inr ⟨by simp, [], .slnil, by simp, rfl⟩
  | cons a r ih =>
    cases verdict : p (f a) with
    | error e =>
      refine .inl ⟨e, a, List.mem_cons_self, verdict, ?_⟩
      rw [List.map_cons, List.filterAuxM, verdict]
      rfl
    | ok b =>
      have next : ((a :: r).map f).filterAuxM p kept =
          (r.map f).filterAuxM p (cond b (f a :: kept) kept) := by
        rw [List.map_cons, List.filterAuxM, verdict]
        rfl
      rw [next]
      rcases ih (cond b (f a :: kept) kept) with ⟨e, x, member, refused, same⟩ |
        ⟨judged, chosen, inside, chosen_iff, same⟩
      · exact .inl ⟨e, x, List.mem_cons_of_mem a member, refused, same⟩
      · refine .inr ⟨List.forall_mem_cons.mpr ⟨⟨b, verdict⟩, judged⟩, ?_⟩
        cases b with
        | true =>
          refine ⟨a :: chosen, inside.cons_cons a, fun x => ?_, by simpa using same⟩
          simp only [List.mem_cons, chosen_iff]
          constructor
          · rintro (rfl | ⟨member, holds⟩)
            · exact ⟨.inl rfl, verdict⟩
            · exact ⟨.inr member, holds⟩
          · rintro ⟨rfl | member, holds⟩
            · exact .inl rfl
            · exact .inr ⟨member, holds⟩
        | false =>
          refine ⟨chosen, inside.cons a, fun x => ?_, by simpa using same⟩
          simp only [List.mem_cons, chosen_iff]
          constructor
          · rintro ⟨member, holds⟩
            exact ⟨.inr member, holds⟩
          · rintro ⟨rfl | member, holds⟩
            · cases verdict.symm.trans holds
            · exact ⟨member, holds⟩

/-- A choice among items is refused as one of them, or each is judged and those that hold are kept in
their order. -/
theorem filterM_map_cases :
    (∃ e, ∃ a ∈ items, p (f a) = .error e ∧ (items.map f).filterM p = .error e) ∨
    ((∀ a ∈ items, ∃ b, p (f a) = .ok b) ∧
      ∃ chosen : List α, chosen.Sublist items ∧ (∀ a, a ∈ chosen ↔ a ∈ items ∧ p (f a) = .ok true) ∧
        (items.map f).filterM p = .ok (chosen.map f)) := by
  rcases filterAuxM_cases f p items [] with ⟨e, a, member, refused, same⟩ |
    ⟨judged, chosen, inside, chosen_iff, same⟩
  · refine .inl ⟨e, a, member, refused, ?_⟩
    rw [List.filterM, same]
    rfl
  · refine .inr ⟨judged, chosen, inside, chosen_iff, ?_⟩
    rw [List.filterM, same]
    simp [bind, Except.bind, pure, Except.pure]

end Filter

end Drydock
