set_option autoImplicit false
set_option relaxedAutoImplicit false

/-!
Finding one text inside another, and cutting or replacing at what is found. All searches go from
left to right and matches do not overlap.
-/

namespace Drydock.Text

/-- What follows `pre` at the start of a text, if the text starts with it. -/
def after? : List Char → List Char → Option (List Char)
  | [], cs => some cs
  | _ :: _, [] => none
  | p :: ps, c :: cs => if p = c then after? ps cs else none

theorem after?_eq_some_iff {pre cs r : List Char} : after? pre cs = some r ↔ cs = pre ++ r := by
  induction pre generalizing cs with
  | nil => simp [after?, eq_comm]
  | cons p ps ih =>
    cases cs with
    | nil => simp [after?]
    | cons c cs => by_cases h : p = c <;> simp [after?, h, ih, eq_comm]

/-- `part` stands somewhere in the text. -/
def occursIn (part : List Char) : List Char → Bool
  | [] => (after? part []).isSome
  | c :: cs => (after? part (c :: cs)).isSome || occursIn part cs

/-- The text before and after the first occurrence of `sep`. -/
def cutAt? (sep : List Char) : List Char → Option (List Char × List Char)
  | [] => (after? sep []).map ([], ·)
  | c :: cs =>
    match after? sep (c :: cs) with
    | some r => some ([], r)
    | none => (cutAt? sep cs).map fun p => (c :: p.1, p.2)

theorem eq_of_cutAt? {sep cs before rest : List Char} (h : cutAt? sep cs = some (before, rest)) :
    cs = before ++ sep ++ rest := by
  induction cs generalizing before with
  | nil =>
    simp only [cutAt?, Option.map_eq_some_iff, Prod.mk.injEq] at h
    obtain ⟨r, hr, rfl, rfl⟩ := h
    simpa using after?_eq_some_iff.1 hr
  | cons c cs ih =>
    simp only [cutAt?] at h
    split at h
    · rename_i r hr
      cases h
      simpa using after?_eq_some_iff.1 hr
    · simp only [Option.map_eq_some_iff, Prod.mk.injEq, Prod.exists] at h
      obtain ⟨a, b, hab, rfl, rfl⟩ := h
      simp [ih hab]

/-- The text before and after the last occurrence of a character. -/
def cutAtLast? (sep : Char) (cs : List Char) : Option (List Char × List Char) :=
  (cutAt? [sep] cs.reverse).map fun p => (p.2.reverse, p.1.reverse)

/-- The pieces between the occurrences of a character. -/
def splitAtChar (sep : Char) : List Char → List (List Char)
  | [] => [[]]
  | c :: cs =>
    if c = sep then [] :: splitAtChar sep cs
    else match splitAtChar sep cs with
      | [] => [[c]]
      | p :: ps => (c :: p) :: ps

/-- Every occurrence of `old` replaced by `new`, the replacements not searched again. The counter
passes over the rest of an occurrence that has been replaced. -/
def replaceFrom (old new : List Char) : Nat → List Char → List Char
  | _, [] => []
  | skip + 1, _ :: cs => replaceFrom old new skip cs
  | 0, c :: cs =>
    match after? old (c :: cs) with
    | some _ => new ++ replaceFrom old new (old.length - 1) cs
    | none => c :: replaceFrom old new 0 cs

/-- Every occurrence of a text that is not empty replaced by another. -/
def replaceAll (old new cs : List Char) : List Char :=
  replaceFrom old new 0 cs

end Drydock.Text
