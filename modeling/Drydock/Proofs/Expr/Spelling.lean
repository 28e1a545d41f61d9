import Drydock.Proofs.Expr.Writing

set_option autoImplicit false
set_option relaxedAutoImplicit false

/-!
How tokens are spelled, and that a text is its tokens with blanks between them. Main statement: the
tokens of a text stand in it one after another, each spelled where it says it is, with nothing but
blanks outside the spellings, and the spellings alone give the same tokens; a text that has no
tokens has them up to a place where no token can be spelled.
-/

namespace Drydock.Expr

open Text (isAsciiDigit isBlank)

/-- Digits, one at least. -/
def DigitRow (ds : List Char) : Prop :=
  ds ≠ [] ∧ AllDigits ds

/-- A minus sign or none, digits, and a point with digits after it or none. -/
def IsNumeral (cs : List Char) : Prop :=
  ∃ sign ds fraction, cs = sign ++ (ds ++ fraction) ∧ (sign = [] ∨ sign = ['-']) ∧
    DigitRow ds ∧ (fraction = [] ∨ ∃ fs, fraction = '.' :: fs ∧ DigitRow fs)

/-- How a token stands in a text: a text between its quotes, a keyword in any case, anything else
as its content. -/
def Kind.Shows (k : Kind) (s : List Char) : Prop :=
  match k with
  | .text content => s = '\'' :: (content.toList ++ ['\''])
  | .bool _ | .null => s.map Char.toLower = k.content.toList
  | _ => s = k.content.toList

/-- What the content of a token can be. The end is written nowhere. -/
def Kind.Lexical : Kind → Prop
  | .ident name => IsName name
  | .text content => '\'' ∉ content.toList
  | .number digits => IsNumeral digits.toList
  | .eof => False
  | _ => True

/-- The characters spell a token. -/
structure Kind.Spells (k : Kind) (s : List Char) : Prop where
  shows : k.Shows s
  lexical : k.Lexical

/-- How many characters a token takes in a text. -/
def Kind.width (k : Kind) : Nat :=
  match k with
  | .text content => content.toList.length + 2
  | _ => k.content.toList.length

theorem Kind.Shows.length {k : Kind} {s : List Char} (shows : k.Shows s) : s.length = k.width := by
  cases k with
  | text content => simp only [Shows] at shows; simp [shows, width]
  | bool | null => simpa [Shows, width] using congrArg List.length shows
  | _ => exact congrArg List.length shows

/-- The place after a token. -/
def Token.stop (t : Token) : Nat :=
  t.position + t.kind.width

/-- The characters of a text at the place of a token. -/
def Token.spelling (cs : List Char) (t : Token) : List Char :=
  (cs.drop t.position).take t.kind.width

section Begins

/-- The token that a character begins and how many further characters it takes. -/
inductive Begins (c : Char) (r : List Char) : Kind → Nat → Prop
  | pair {d : Char} {r' : List Char} {op : Operator} (next : r = d :: r')
      (found : pairOperator? c d = some op) : Begins c r (.operator op) 1
  | single {kind : Kind} (alone : r.head?.bind (pairOperator? c) = none)
      (found : singleKind? c = some kind) : Begins c r kind 0
  | text {content r' : List Char} (quote : c = '\'') (closed : r = content ++ '\'' :: r')
      (free : '\'' ∉ content) : Begins c r (.text (String.ofList content)) (content.length + 1)
  | number (begins : (isAsciiDigit c || c == '-' && startsWithDigit r) = true) :
      Begins c r (.number (String.ofList (c :: r.take (numberTail false r)))) (numberTail false r)
  | word (begins : beginsName c = true) :
      Begins c r (wordKind (c :: r.takeWhile continuesName)) (r.takeWhile continuesName).length

variable {c : Char} {r s : List Char} {k : Kind} {n : Nat}

/-- What begins a number begins no sign. -/
theorem not_sign_of_digit (begins : isAsciiDigit c = true ∨ c = '-') :
    (∀ d, pairOperator? c d = none) ∧ singleKind? c = none ∧ c ≠ '\'' := by
  have other : ∀ sign, isAsciiDigit sign = false ∧ sign ≠ '-' → c ≠ sign := by
    rintro sign ⟨ends, minus⟩ rfl
    rcases begins with digit | rfl
    · exact absurd (ends.symm.trans digit) Bool.false_ne_true
    · exact minus rfl
  refine ⟨fun d => ?_, ?_, other _ (by decide)⟩
  · simp only [pairOperator?]
    split
    case h_7 => rfl
    all_goals exact absurd rfl (other _ (by decide))
  · simp only [singleKind?]
    split
    case h_7 => rfl
    all_goals exact absurd rfl (other _ (by decide))

theorem digit_or_minus (begins : (isAsciiDigit c || c == '-' && startsWithDigit r) = true) :
    isAsciiDigit c = true ∨ c = '-' := by
  simp only [Bool.or_eq_true, Bool.and_eq_true, beq_iff_eq] at begins
  exact begins.imp_right And.left

theorem alone_of_none (never : ∀ d, pairOperator? c d = none) (r : List Char) :
    r.head?.bind (pairOperator? c) = none := by
  cases r with
  | nil => rfl
  | cons d r => exact never d

theorem exists_of_takeWhile_lt (closed : (r.takeWhile (· ≠ '\'')).length < r.length) :
    ∃ r', r = r.takeWhile (· ≠ '\'') ++ '\'' :: r' := by
  have split := List.takeWhile_append_dropWhile (p := (· ≠ '\'')) (l := r)
  cases rest : r.dropWhile (· ≠ '\'') with
  | nil =>
    rw [rest, List.append_nil] at split
    exact absurd (congrArg List.length split) closed.ne
  | cons d r' =>
    have stops := List.head?_dropWhile_not (fun x : Char => decide (x ≠ '\'')) r
    rw [rest] at stops split
    obtain rfl : d = '\'' := by simpa using stops
    exact ⟨r', split.symm⟩

theorem takeWhile_quote {content r' : List Char} (free : '\'' ∉ content) :
    (content ++ '\'' :: r').takeWhile (· ≠ '\'') = content := by
  rw [takeWhile_append_cons_of_neg (by simp)]
  exact List.takeWhile_eq_self_iff.mpr fun x member => by
    simpa using ne_of_mem_of_not_mem member free

/-- The token found at a place is the one that begins there. -/
theorem lexeme_eq_ok_iff : lexeme c r = .ok (k, n) ↔ Begins c r k n := by
  constructor
  · intro here
    simp only [lexeme] at here
    split at here
    · rename_i op found
      cases here
      cases r with
      | nil => cases found
      | cons d r' => exact .pair rfl found
    · rename_i alone
      split at here
      · rename_i found
        cases here
        exact .single alone found
      · split_ifs at here with quote closed number word
        · cases here
          obtain ⟨r', split⟩ := exists_of_takeWhile_lt closed
          exact .text quote split fun member => by simpa using List.mem_takeWhile_imp member
        · cases here
          exact .number number
        · cases here
          exact .word word
  · intro begins
    cases begins with
    | pair next found => simp [lexeme, next, found]
    | single alone found => simp [lexeme, alone, found]
    | @text content r' quote closed free =>
      subst quote closed
      have alone := alone_of_none (c := '\'') (fun _ => rfl) (content ++ '\'' :: r')
      have single : singleKind? '\'' = none := rfl
      simp only [lexeme, alone, single, if_true, takeWhile_quote free]
      rw [if_pos (by simp)]
    | number begins =>
      obtain ⟨pair, single, quote⟩ := not_sign_of_digit (digit_or_minus begins)
      simp only [lexeme, alone_of_none pair r, single, if_neg quote, if_pos begins]
    | word begins =>
      obtain ⟨pair, single, quote, minus⟩ := not_sign_of_beginsName begins
      simp [lexeme, alone_of_none pair r, single, quote, minus, isAsciiDigit_of_beginsName begins,
        begins]

theorem Begins.visible (begins : Begins c r k n) : isBlank c = false := by
  cases begins with
  | pair _ found =>
    simp only [pairOperator?] at found
    split at found
    case h_7 => cases found
    all_goals rfl
  | single _ found =>
    simp only [singleKind?] at found
    split at found
    case h_7 => cases found
    all_goals rfl
  | text quote => exact quote ▸ rfl
  | number begins =>
    rcases digit_or_minus begins with digit | rfl
    · exact isBlank_of_isAsciiDigit digit
    · rfl
  | word begins => exact isBlank_of_beginsName begins

theorem startsWithDigit_of_append {seen : Bool} (digit : startsWithDigit (r ++ s) = true)
    (inside : numberTail seen (r ++ s) ≤ r.length) : startsWithDigit r = true := by
  cases r with
  | cons => exact digit
  | nil =>
    cases s with
    | nil => cases digit
    | cons d s =>
      have digit : isAsciiDigit d = true := digit
      simp [numberTail, digit] at inside

/-- A number that does not reach beyond a place ends where it ends in the text up to there. -/
theorem numberTail_of_append {seen : Bool} (inside : numberTail seen (r ++ s) ≤ r.length) :
    numberTail seen r = numberTail seen (r ++ s) := by
  induction r generalizing seen with
  | nil => exact (Nat.le_zero.mp inside).symm
  | cons c r ih =>
    simp only [List.cons_append, numberTail, List.length_cons] at inside ⊢
    by_cases digit : isAsciiDigit c = true
    · simp only [if_pos digit] at inside ⊢
      rw [ih (Nat.le_of_succ_le_succ inside)]
    · simp only [if_neg digit] at inside ⊢
      by_cases point : (c == '.' && !seen && startsWithDigit (r ++ s)) = true
      · simp only [if_pos point] at inside ⊢
        have short := Nat.le_of_succ_le_succ inside
        simp only [Bool.and_eq_true] at point
        rw [if_pos (by simp [point.1, startsWithDigit_of_append point.2 short]), ih short]
      · simp only [if_neg point]
        refine if_neg fun shorter => point ?_
        simp only [Bool.and_eq_true] at shorter ⊢
        refine ⟨shorter.1, ?_⟩
        cases r with
        | nil => cases shorter.2
        | cons => exact shorter.2

theorem takeWhile_of_append {p : Char → Bool}
    (inside : ((r ++ s).takeWhile p).length ≤ r.length) :
    (r ++ s).takeWhile p = r.takeWhile p := by
  rw [List.takeWhile_append] at inside ⊢
  split_ifs at inside ⊢ with all
  · have none : s.takeWhile p = [] := by
      rw [List.length_append] at inside
      exact List.eq_nil_of_length_eq_zero (by omega)
    rw [none, List.append_nil, (List.takeWhile_prefix p).eq_of_length all]
  · rfl

/-- A token that does not reach beyond a place is found in the text up to there. -/
theorem Begins.of_append (begins : Begins c (r ++ s) k n) (inside : n ≤ r.length) :
    Begins c r k n := by
  cases begins with
  | pair next found =>
    cases r with
    | nil => simp at inside
    | cons d r => exact .pair rfl ((List.cons.inj next).1 ▸ found)
  | single alone found =>
    refine .single ?_ found
    cases r with
    | nil => rfl
    | cons => exact alone
  | @text content r' quote closed free =>
    have within : content ++ ['\''] <+: r := by
      refine List.prefix_of_prefix_length_le ⟨r', ?_⟩ (List.prefix_append r s) ?_
      · simp [closed]
      · simpa using inside
    obtain ⟨r'', rfl⟩ := within
    exact .text quote (List.append_assoc content _ r'') free
  | number begins =>
    have tail := numberTail_of_append inside
    have first : (isAsciiDigit c || c == '-' && startsWithDigit r) = true := by
      simp only [Bool.or_eq_true, Bool.and_eq_true] at begins ⊢
      exact begins.imp_right fun minus => ⟨minus.1, startsWithDigit_of_append minus.2 inside⟩
    rw [← tail, List.take_append_of_le_length (numberTail_le false r)]
    exact .number first
  | word begins =>
    rw [takeWhile_of_append inside]
    exact .word begins

/-- Where a token begins one still begins when more follows. -/
theorem Begins.exists_append (begins : Begins c r k n) (s : List Char) :
    ∃ k' n', Begins c (r ++ s) k' n' := by
  cases begins with
  | pair next found => exact ⟨_, _, .pair (by rw [next, List.cons_append]) found⟩
  | single _ found =>
    cases pair : (r ++ s).head?.bind (pairOperator? c) with
    | none => exact ⟨_, _, .single pair found⟩
    | some op =>
      obtain ⟨d, first, found⟩ := Option.bind_eq_some_iff.mp pair
      obtain ⟨r', whole⟩ := List.head?_eq_some_iff.mp first
      exact ⟨_, _, .pair whole found⟩
  | text quote closed free =>
    exact ⟨_, _, .text quote (by rw [closed, List.append_assoc, List.cons_append]) free⟩
  | number begins =>
    refine ⟨_, _, .number ?_⟩
    cases r with
    | cons => exact begins
    | nil =>
      have digit : isAsciiDigit c = true := by simpa [startsWithDigit] using begins
      simp [digit]
  | word begins => exact ⟨_, _, .word begins⟩

end Begins

section Spelled

variable {c : Char} {r s : List Char} {k : Kind} {n : Nat}

theorem numberTail_digits {ds : List Char} (digits : AllDigits ds) (seen : Bool)
    (rest : List Char) :
    numberTail seen (ds ++ rest) = ds.length + numberTail seen rest := by
  induction ds with
  | nil => simp
  | cons d ds ih =>
    obtain ⟨digit, digits⟩ := List.forall_mem_cons.mp digits
    rw [List.cons_append, numberTail, if_pos digit, ih digits, List.length_cons]
    omega

theorem startsWithDigit_row {ds : List Char} (row : DigitRow ds) (rest : List Char) :
    startsWithDigit (ds ++ rest) = true := by
  obtain ⟨some, digits⟩ := row
  cases ds with
  | nil => exact absurd rfl some
  | cons d ds => exact digits d List.mem_cons_self

/-- Digits and a fraction are all taken for one number. -/
theorem numberTail_eq_length {ds fraction : List Char} (digits : AllDigits ds)
    (rest : fraction = [] ∨ ∃ fs, fraction = '.' :: fs ∧ DigitRow fs) :
    numberTail false (ds ++ fraction) = (ds ++ fraction).length := by
  rw [numberTail_digits digits, List.length_append]
  rcases rest with rfl | ⟨fs, rfl, row⟩
  · rfl
  · have first := startsWithDigit_row row []
    have all := numberTail_digits row.2 true []
    rw [List.append_nil] at first all
    have point : isAsciiDigit '.' = false := by decide
    simp [numberTail, point, first, all]

theorem numeral_tail (r : List Char) :
    ∃ ds fraction, r.take (numberTail false r) = ds ++ fraction ∧ AllDigits ds ∧
      (fraction = [] ∨ ∃ fs, fraction = '.' :: fs ∧ DigitRow fs) := by
  induction r with
  | nil => exact ⟨[], [], rfl, allDigits_nil, .inl rfl⟩
  | cons c r ih =>
    simp only [numberTail]
    split_ifs with digit point
    · obtain ⟨ds, fraction, same, digits, rest⟩ := ih
      exact ⟨c :: ds, fraction, by simp [same], digits.cons digit, rest⟩
    · simp only [Bool.and_eq_true, beq_iff_eq] at point
      obtain ⟨⟨rfl, -⟩, first⟩ := point
      refine ⟨[], _, rfl, allDigits_nil, .inr ⟨_, rfl, ?_, allDigits_numberTail r⟩⟩
      cases r with
      | nil => cases first
      | cons d r =>
        have digit : isAsciiDigit d = true := first
        simp [numberTail, digit]
    · exact ⟨[], [], rfl, allDigits_nil, .inl rfl⟩

/-- What is read as a number is written as one. -/
theorem isNumeral_of_begins (begins : (isAsciiDigit c || c == '-' && startsWithDigit r) = true) :
    IsNumeral (c :: r.take (numberTail false r)) := by
  obtain ⟨ds, fraction, same, digits, rest⟩ := numeral_tail r
  rw [same]
  cases digit : isAsciiDigit c with
  | true => exact ⟨[], c :: ds, fraction, rfl, .inl rfl, ⟨by simp, digits.cons digit⟩, rest⟩
  | false =>
    simp only [digit, Bool.false_or, Bool.and_eq_true, beq_iff_eq] at begins
    obtain ⟨rfl, first⟩ := begins
    have some : ds ≠ [] := by
      rintro rfl
      have first := startsWithDigit_take first
      rw [same] at first
      rcases rest with rfl | ⟨fs, rfl, -⟩ <;> cases first
    exact ⟨['-'], ds, fraction, rfl, .inr rfl, ⟨some, digits⟩, rest⟩

/-- A number as it is written begins a token that takes all of it. -/
theorem IsNumeral.begins {cs : List Char} (numeral : IsNumeral cs) :
    ∃ c r, cs = c :: r ∧ Begins c r (.number (String.ofList cs)) r.length := by
  obtain ⟨sign, ds, fraction, rfl, sign, row, rest⟩ := numeral
  rcases sign with rfl | rfl
  · obtain ⟨some, digits⟩ := row
    cases ds with
    | nil => exact absurd rfl some
    | cons d ds =>
      obtain ⟨digit, digits⟩ := List.forall_mem_cons.mp digits
      have whole := Begins.number (c := d) (r := ds ++ fraction) (by simp [digit])
      rw [numberTail_eq_length digits rest, List.take_length] at whole
      exact ⟨d, ds ++ fraction, rfl, whole⟩
  · have whole := Begins.number (c := '-') (r := ds ++ fraction)
      (by simp [startsWithDigit_row row])
    rw [numberTail_eq_length row.2 rest, List.take_length] at whole
    exact ⟨'-', ds ++ fraction, rfl, whole⟩

theorem begins_word (begins : beginsName c = true) (continues : r.all continuesName = true) :
    Begins c r (wordKind (c :: r)) r.length :=
  lexeme_eq_ok_iff.mp (lexeme_word begins continues)

/-- A letter in lower case begins a name in upper case too. -/
theorem beginsName_of_toLower (begins : beginsName c.toLower = true) : beginsName c = true := by
  have upper : ∀ n ∈ List.range' 65 26, beginsName (Char.ofNat n) = true := by decide +kernel
  by_cases capital : 65 ≤ c.toNat ∧ c.toNat ≤ 90
  · have letter := upper c.toNat (List.mem_range'_1.mpr ⟨capital.1, by omega⟩)
    rwa [Char.ofNat_toNat] at letter
  · have same : c.toLower = c := by
      refine dif_neg fun range => capital ?_
      simpa [UInt32.le_iff_toNat_le] using range
    rwa [same] at begins

/-- The letters of a word whose lower case is that of a keyword. -/
theorem begins_keyword (word : List Char) (letters : word.all beginsName = true)
    (some : word ≠ []) (folded : s.map Char.toLower = word) :
    ∃ c r, s = c :: r ∧ Begins c r (wordKind s) r.length := by
  subst folded
  cases s with
  | nil => exact absurd rfl some
  | cons c r =>
    simp only [List.map_cons, List.all_cons, List.all_map, Bool.and_eq_true, List.all_eq_true,
      Function.comp_apply] at letters
    refine ⟨c, r, rfl, begins_word (beginsName_of_toLower letters.1) ?_⟩
    exact List.all_eq_true.mpr fun d member =>
      continuesName_of_beginsName (beginsName_of_toLower (letters.2 d member))

theorem shows_wordKind (word : List Char) : (wordKind word).Shows word := by
  simp only [wordKind]
  split_ifs with isTrue isFalse isNull
  · exact isTrue
  · exact isFalse
  · exact isNull
  · exact (String.toList_ofList).symm

theorem lexical_wordKind (begins : beginsName c = true) (continues : r.all continuesName = true) :
    (wordKind (c :: r)).Lexical := by
  have plain : ∀ name, wordKind (c :: r) = .ident name → IsName name := by
    intro name found
    have same : name = String.ofList (c :: r) := by
      simp only [wordKind] at found
      split_ifs at found
      exact (Kind.ident.inj found).symm
    subst same
    exact ⟨⟨c, r, by simp, begins, continues⟩, by simpa using found⟩
  cases found : wordKind (c :: r) with
  | ident name => exact plain name found
  | eof => exact (wordKind_ne _).1 found
  | number digits => exact absurd found ((wordKind_ne _).2 digits)
  | text content => simp only [wordKind] at found; split_ifs at found
  | _ => trivial

/-- A token that begins at a place is spelled there. -/
theorem Begins.spells (begins : Begins c r k n) : k.Spells (c :: r.take n) := by
  cases begins with
  | @pair d r' op next found =>
    refine ⟨?_, trivial⟩
    rw [next]
    simp only [pairOperator?] at found
    split at found <;> cases found <;> rfl
  | single _ found =>
    simp only [singleKind?] at found
    split at found <;> cases found <;> exact ⟨rfl, trivial⟩
  | @text content r' quote closed free =>
    refine ⟨?_, by simpa [Kind.Lexical] using free⟩
    simp [Kind.Shows, quote, closed, List.take_append]
  | number begins =>
    refine ⟨by simp [Kind.Shows, Kind.content], ?_⟩
    simpa [Kind.Lexical] using isNumeral_of_begins begins
  | word begins =>
    have all : (r.takeWhile continuesName).all continuesName = true :=
      List.all_takeWhile
    have taken : r.take (r.takeWhile continuesName).length = r.takeWhile continuesName :=
      (List.prefix_iff_eq_take.mp (List.takeWhile_prefix _)).symm
    rw [taken]
    exact ⟨shows_wordKind _, lexical_wordKind begins all⟩

/-- The spelling of a token begins that token, which takes all of it. -/
theorem Kind.Spells.begins (spells : k.Spells s) :
    ∃ c r, s = c :: r ∧ Begins c r k r.length := by
  obtain ⟨shows, lexical⟩ := spells
  cases k with
  | ident name =>
    obtain ⟨⟨c, r, whole, begins, continues⟩, plain⟩ := lexical
    obtain rfl : s = name.toList := shows
    rw [whole] at plain ⊢
    exact ⟨c, r, rfl, plain ▸ begins_word begins continues⟩
  | text content =>
    obtain rfl : s = '\'' :: (content.toList ++ ['\'']) := shows
    have whole := Begins.text (c := '\'') rfl rfl lexical (r := content.toList ++ ['\''])
    exact ⟨_, _, rfl, by simpa using whole⟩
  | number digits =>
    obtain rfl : s = digits.toList := shows
    simpa using lexical.begins
  | bool b =>
    obtain ⟨c, r, rfl, begins⟩ := begins_keyword (Kind.bool b).content.toList
      (by cases b <;> decide +kernel) (by cases b <;> decide) shows
    have keyword : wordKind (c :: r) = .bool b := by
      simp only [Kind.Shows] at shows
      cases b <;> simp [wordKind, shows, Kind.content]
    exact ⟨c, r, rfl, keyword ▸ begins⟩
  | null =>
    obtain ⟨c, r, rfl, begins⟩ := begins_keyword Kind.null.content.toList
      (by decide +kernel) (by decide) shows
    have keyword : wordKind (c :: r) = .null := by
      simp only [Kind.Shows] at shows
      simp [wordKind, shows, Kind.content]
    exact ⟨c, r, rfl, keyword ▸ begins⟩
  | eof => exact absurd lexical id
  | operator op =>
    obtain rfl : s = op.symbol.toList := shows
    cases op
    case lt | gt => exact ⟨_, [], rfl, .single rfl rfl⟩
    all_goals exact ⟨_, [_], rfl, .pair rfl rfl⟩
  | _ =>
    cases shows
    exact ⟨_, [], rfl, .single rfl rfl⟩

theorem Kind.Spells.width_pos (spells : k.Spells s) : 0 < k.width := by
  obtain ⟨c, r, rfl, -⟩ := spells.begins
  rw [← spells.shows.length]
  exact Nat.succ_pos _

theorem Kind.Spells.lexes (spells : k.Spells s) : Lexes s [k] := by
  obtain ⟨c, r, rfl, begins⟩ := spells.begins
  exact .token begins.visible (lexeme_eq_ok_iff.mpr begins) (by simpa using .nil)

/-- Spellings with blanks after them are found apart. -/
theorem lexes_of_spells {ks : List Kind} {ss : List (List Char)}
    (spells : List.Forall₂ Kind.Spells ks ss) :
    Lexes (" ".intercalate ((ss ++ [[]]).map String.ofList)).toList ks := by
  induction spells with
  | nil => simpa using .nil
  | @cons k s ks ss first others ih =>
    have joined : (" ".intercalate (((s :: ss) ++ [[]]).map String.ofList)).toList =
        s ++ ' ' :: (" ".intercalate ((ss ++ [[]]).map String.ofList)).toList := by
      cases ss <;> simp
    rw [joined]
    exact first.lexes.append (separates_of_isBlank rfl) (.blank rfl ih)

/-- Where the scanner fails a quote is left open or no token is spelled. -/
theorem not_spells_of_lexeme_error {cause : Cause} (fails : lexeme c r = .error cause) :
    (∀ k s, Kind.Spells k s → ¬s <+: c :: r) ∧
      (c = '\'' ∧ '\'' ∉ r ∧ cause = .unterminatedText ∨
        c ≠ '\'' ∧ cause = .unexpectedChar c) := by
  have never : ∀ k n, ¬Begins c r k n := by
    intro k n begins
    rw [lexeme_eq_ok_iff.mpr begins] at fails
    cases fails
  constructor
  · rintro k s spells ⟨rest, whole⟩
    obtain ⟨d, s, rfl, begins⟩ := spells.begins
    obtain ⟨rfl, rfl⟩ := List.cons.inj whole
    obtain ⟨k', n, more⟩ := begins.exists_append rest
    exact never k' n more
  · simp only [lexeme] at fails
    split at fails
    · cases fails
    · split at fails
      · cases fails
      · split_ifs at fails with quote
        · refine .inl ⟨quote, fun member => ?_, (Except.error.inj fails).symm⟩
          obtain ⟨content, r', closed, free⟩ := List.eq_append_cons_of_mem member
          exact never _ _ (.text quote closed free)
        · exact .inr ⟨quote, (Except.error.inj fails).symm⟩

end Spelled

section Reading

/-- From a place and the text there the scanner reads tokens and comes to a place and the text
there. -/
inductive Reads : Nat → List Char → List Token → Nat → List Char → Prop
  | start (p : Nat) (cs : List Char) : Reads p cs [] p cs
  | blank {p q : Nat} {c : Char} {r rest : List Char} {ts : List Token}
      (skipped : isBlank c = true) (more : Reads (p + 1) r ts q rest) : Reads p (c :: r) ts q rest
  | token {p q : Nat} {c : Char} {r rest : List Char} {ts : List Token} {kind : Kind} {extra : Nat}
      (visible : isBlank c = false) (here : lexeme c r = .ok (kind, extra))
      (more : Reads (p + (extra + 1)) (r.drop extra) ts q rest) :
      Reads p (c :: r) (⟨kind, p⟩ :: ts) q rest

/-- Between two places a text is the spellings of tokens, each where the token says it is, and
blanks. -/
structure Laid (cs : List Char) (p q : Nat) (ts : List Token) : Prop where
  spelled : ∀ t ∈ ts, t.kind.Spells (t.spelling cs)
  apart : ts.Pairwise fun t u => t.stop ≤ u.position
  inside : ∀ t ∈ ts, p ≤ t.position ∧ t.stop ≤ q
  blank : ∀ i c, p ≤ i → i < q → cs[i]? = some c →
    (∀ t ∈ ts, ¬(t.position ≤ i ∧ i < t.stop)) → isBlank c = true

variable {p q : Nat} {cs rest : List Char} {ts : List Token}

theorem reads_of_tokensFrom {tokens : List Token} (lexed : tokensFrom p cs = .ok tokens) :
    ∃ ts q, tokens = ts ++ [⟨.eof, q⟩] ∧ Reads p cs ts q [] := by
  fun_induction tokensFrom p cs generalizing tokens with
  | case1 p =>
    cases lexed
    exact ⟨[], p, rfl, .start p []⟩
  | case2 p c r skipped ih =>
    obtain ⟨ts, q, rfl, reads⟩ := ih lexed
    exact ⟨ts, q, rfl, .blank skipped reads⟩
  | case3 | case4 => cases lexed
  | case5 p c r visible kind extra here others _ ih =>
    cases lexed
    obtain ⟨ts, q, rfl, reads⟩ := ih ‹_›
    exact ⟨_, q, rfl, .token (by simpa using visible) here reads⟩

/-- A scan that fails reads up to the place where it fails. -/
theorem reads_of_tokensFrom_error {fault : SyntaxFault} (fails : tokensFrom p cs = .error fault) :
    ∃ ts q c r, Reads p cs ts q (c :: r) ∧ isBlank c = false ∧
      lexeme c r = .error fault.cause ∧ fault.position = some q := by
  fun_induction tokensFrom p cs with
  | case1 | case5 => cases fails
  | case2 p c r skipped ih =>
    obtain ⟨ts, q, d, r', reads, found⟩ := ih fails
    exact ⟨ts, q, d, r', .blank skipped reads, found⟩
  | case3 p c r visible cause here =>
    cases fails
    exact ⟨[], p, c, r, .start p _, by simpa using visible, here, rfl⟩
  | case4 p c r visible kind extra here _ _ ih =>
    cases fails
    obtain ⟨ts, q, d, r', reads, found⟩ := ih ‹_›
    exact ⟨_, q, d, r', .token (by simpa using visible) here reads, found⟩

theorem Reads.tokensFrom_eq (reads : Reads p cs ts q []) :
    tokensFrom p cs = .ok (ts ++ [⟨.eof, q⟩]) := by
  generalize none : ([] : List Char) = rest at reads
  induction reads with
  | start p cs =>
    subst none
    rw [tokensFrom]
    rfl
  | blank skipped _ ih => rw [tokensFrom, if_pos skipped, ih none]
  | token visible here _ ih =>
    rw [tokensFrom, if_neg (Bool.eq_false_iff.mp visible)]
    simp only [here, ih none, List.cons_append]

/-- What is read up to a place is read of the text up to there alone. -/
theorem Reads.split (reads : Reads p cs ts q rest) :
    ∃ front, cs = front ++ rest ∧ q = p + front.length ∧ Reads p front ts q [] := by
  induction reads with
  | start p cs => exact ⟨[], rfl, rfl, .start p []⟩
  | @blank p q c r rest ts skipped _ ih =>
    obtain ⟨front, rfl, rfl, reads⟩ := ih
    exact ⟨c :: front, rfl, by simp only [List.length_cons]; omega, .blank skipped reads⟩
  | @token p q c r rest ts kind extra visible here _ ih =>
    obtain ⟨front, after, rfl, reads⟩ := ih
    have short := lexeme_extra_le here
    have split : r = (r.take extra ++ front) ++ rest := by
      rw [List.append_assoc, ← after, List.take_append_drop]
    have taken : (r.take extra).length = extra := by simpa using short
    have begins := lexeme_eq_ok_iff.mp here
    rw [split] at begins
    have alone := lexeme_eq_ok_iff.mpr (begins.of_append (by simp [taken]))
    refine ⟨c :: (r.take extra ++ front), by rw [List.cons_append, ← split], ?_, ?_⟩
    · simp only [List.length_cons, List.length_append, taken]
      omega
    · exact .token visible alone (by rwa [List.drop_left' taken])

theorem Reads.laid (reads : Reads p cs ts q rest) (before : List Char) (here : p = before.length) :
    p ≤ q ∧ Laid (before ++ cs) p q ts := by
  induction reads generalizing before with
  | start p cs => exact ⟨le_rfl, by simp, .nil, by simp, fun i c low high => by omega⟩
  | @blank p q c r rest ts skipped _ ih =>
    have split : before ++ c :: r = (before ++ [c]) ++ r := by simp
    obtain ⟨le, laid⟩ := ih (before ++ [c]) (by simp [here])
    rw [split]
    refine ⟨by omega, laid.spelled, laid.apart, ?_, ?_⟩
    · intro t member
      have inside := laid.inside t member
      exact ⟨by omega, inside.2⟩
    · intro i d low high found outside
      by_cases first : i = p
      · have same : (before ++ [c] ++ r)[i]? = some c := by simp [first, here]
        exact Option.some.inj (same.symm.trans found) ▸ skipped
      · exact laid.blank i d (by omega) high found outside
  | @token p q c r rest ts kind extra visible found _ ih =>
    have short := lexeme_extra_le found
    have taken : (r.take extra).length = extra := by simpa using short
    have split : before ++ c :: r = (before ++ c :: r.take extra) ++ r.drop extra := by simp
    obtain ⟨le, laid⟩ := ih (before ++ c :: r.take extra)
      (by simp only [List.length_append, List.length_cons, taken]; omega)
    have spells := (lexeme_eq_ok_iff.mp found).spells
    have width : kind.width = extra + 1 := by rw [← spells.shows.length, List.length_cons, taken]
    have spelling : Token.spelling (before ++ c :: r) ⟨kind, p⟩ = c :: r.take extra := by
      simp [Token.spelling, here, width]
    rw [← split] at laid
    refine ⟨by omega, ?_, ?_, ?_, ?_⟩
    · exact List.forall_mem_cons.mpr ⟨by rw [spelling]; exact spells, laid.spelled⟩
    · refine .cons (fun t member => ?_) laid.apart
      have inside := laid.inside t member
      simp only [Token.stop, width]
      omega
    · refine List.forall_mem_cons.mpr ⟨by simp only [Token.stop, width]; omega, ?_⟩
      intro t member
      have inside := laid.inside t member
      exact ⟨by omega, inside.2⟩
    · intro i d low high at_ outside
      obtain ⟨first, others⟩ := List.forall_mem_cons.mp outside
      simp only [Token.stop, width] at first
      exact laid.blank i d (by omega) high at_ others

theorem Laid.increasing (laid : Laid cs p q ts) :
    ((ts ++ [(⟨.eof, q⟩ : Token)]).map Token.position).Pairwise (· < ·) := by
  have before : ∀ t ∈ ts, t.position < t.stop := fun t member =>
    Nat.lt_add_of_pos_right (laid.spelled t member).width_pos
  rw [List.pairwise_map]
  refine List.pairwise_append.mpr ⟨?_, List.pairwise_singleton _ _, ?_⟩
  · refine laid.apart.imp_of_mem fun member _ apart => ?_
    exact (before _ member).trans_le apart
  · intro t member u final
    obtain rfl := List.mem_singleton.mp final
    exact (before t member).trans_le (laid.inside t member).2

/-- The spellings of tokens, joined by blanks, have the same tokens. -/
theorem Laid.rejoined (laid : Laid cs p q ts) :
    ∃ again, tokenize (" ".intercalate ((ts ++ [(⟨.eof, q⟩ : Token)]).map fun t =>
        String.ofList (Token.spelling cs t))) = .ok again ∧
      again.map Token.kind = (ts ++ [(⟨.eof, q⟩ : Token)]).map Token.kind := by
  have spells : List.Forall₂ Kind.Spells (ts.map Token.kind) (ts.map (Token.spelling cs)) := by
    rw [List.forall₂_map_left_iff, List.forall₂_map_right_iff, List.forall₂_same]
    exact laid.spelled
  obtain ⟨again, lexed, kinds⟩ := (lexes_of_spells spells).exists_tokens 0
  have spellings :
      ((ts ++ [(⟨.eof, q⟩ : Token)]).map fun t => String.ofList (Token.spelling cs t)) =
        (ts.map (Token.spelling cs) ++ [[]]).map String.ofList := by
    simp [Function.comp_def, Token.spelling, Kind.width, Kind.content]
  refine ⟨again, ?_, by rw [kinds, List.map_append]; rfl⟩
  rwa [spellings]

end Reading

/-- The tokens of a text stand in it with nothing but blanks around their spellings, and the end
after them; the spellings alone have the same tokens. A text that has none is read up to a place,
where its beginning has the tokens read, and there a quote is never closed or no token is
spelled. -/
theorem tokenize_faithful (text : String) :
    (∀ tokens, tokenize text = .ok tokens → ∃ ts, tokens = ts ++ [⟨.eof, text.length⟩] ∧
      (tokens.map Token.position).Pairwise (· < ·) ∧ Laid text.toList 0 text.length ts ∧
      ∃ again, tokenize (" ".intercalate
          (tokens.map fun t => String.ofList (t.spelling text.toList))) = .ok again ∧
        again.map Token.kind = tokens.map Token.kind) ∧
    (∀ fault, tokenize text = .error fault → ∃ ts p c r, fault.position = some p ∧
      text.toList.drop p = c :: r ∧ Reads 0 text.toList ts p (c :: r) ∧
      tokenize (String.ofList (text.toList.take p)) = .ok (ts ++ [⟨.eof, p⟩]) ∧
      isBlank c = false ∧ (∀ k s, Kind.Spells k s → ¬s <+: c :: r) ∧
      (c = '\'' ∧ '\'' ∉ r ∧ fault.cause = .unterminatedText ∨
        c ≠ '\'' ∧ fault.cause = .unexpectedChar c)) := by
  constructor
  · intro tokens lexed
    obtain ⟨ts, q, rfl, reads⟩ := reads_of_tokensFrom lexed
    obtain ⟨front, whole, length, -⟩ := reads.split
    obtain rfl : q = text.length := by
      rw [length, ← String.length_toList, whole, List.append_nil, Nat.zero_add]
    have laid : Laid text.toList 0 text.length ts := (reads.laid [] rfl).2
    exact ⟨ts, rfl, laid.increasing, laid, laid.rejoined⟩
  · intro fault fails
    obtain ⟨ts, p, c, r, reads, visible, here, place⟩ := reads_of_tokensFrom_error fails
    obtain ⟨front, whole, length, before⟩ := reads.split
    obtain rfl : p = front.length := by rw [length, Nat.zero_add]
    have lexed := before.tokensFrom_eq
    refine ⟨ts, front.length, c, r, place, ?_, reads, ?_, visible,
      not_spells_of_lexeme_error here⟩
    · rw [whole, List.drop_left]
    · rwa [tokenize, String.toList_ofList, whole, List.take_left]

end Drydock.Expr
