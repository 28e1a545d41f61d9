import Drydock.Proofs.Expr.Soundness
import Mathlib.Data.List.TakeWhile

set_option autoImplicit false
set_option relaxedAutoImplicit false

/-!
The lexer. Main statements: the tokens of a text are those that its characters fall into, numbers
among them can be read, and the tokens of two texts with a separating character between them are
those of the one followed by those of the other.
-/

namespace Drydock.Expr

open Text (isAsciiDigit isBlank digitValue? digitValue?_of_isAsciiDigit)

/-- Characters fall into tokens of these kinds with blanks between them. -/
inductive Lexes : List Char → List Kind → Prop
  | nil : Lexes [] []
  | blank {c : Char} {r : List Char} {ks : List Kind} (skipped : isBlank c = true)
      (rest : Lexes r ks) : Lexes (c :: r) ks
  | token {c : Char} {r : List Char} {kind : Kind} {extra : Nat} {ks : List Kind}
      (visible : isBlank c = false) (here : lexeme c r = .ok (kind, extra))
      (rest : Lexes (r.drop extra) ks) : Lexes (c :: r) (kind :: ks)

theorem lexes_of_tokensFrom {position : Nat} {cs : List Char} {tokens : List Token}
    (lexed : tokensFrom position cs = .ok tokens) :
    ∃ ks, tokens.map Token.kind = ks ++ [.eof] ∧ Lexes cs ks := by
  fun_induction tokensFrom position cs generalizing tokens with
  | case1 =>
    cases lexed
    exact ⟨[], rfl, .nil⟩
  | case2 position c r skipped ih =>
    obtain ⟨ks, kinds, lexes⟩ := ih lexed
    exact ⟨ks, kinds, .blank skipped lexes⟩
  | case3 | case4 => cases lexed
  | case5 position c r visible kind extra here others _ ih =>
    cases lexed
    obtain ⟨ks, kinds, lexes⟩ := ih ‹_›
    exact ⟨kind :: ks, by simp [kinds], .token (by simpa using visible) here lexes⟩

theorem Lexes.exists_tokens {cs : List Char} {ks : List Kind} (lexes : Lexes cs ks)
    (position : Nat) :
    ∃ tokens, tokensFrom position cs = .ok tokens ∧ tokens.map Token.kind = ks ++ [.eof] := by
  induction lexes generalizing position with
  | nil => exact ⟨_, by rw [tokensFrom], rfl⟩
  | blank skipped _ ih =>
    obtain ⟨tokens, lexed, kinds⟩ := ih (position + 1)
    exact ⟨tokens, by rw [tokensFrom, if_pos skipped, lexed], kinds⟩
  | @token c r kind extra ks visible here _ ih =>
    obtain ⟨tokens, lexed, kinds⟩ := ih (position + (extra + 1))
    refine ⟨⟨kind, position⟩ :: tokens, ?_, by simp [kinds]⟩
    rw [tokensFrom, if_neg (Bool.eq_false_iff.mp visible)]
    simp only [here, lexed]

/-- Characters fall into tokens in at most one way. -/
theorem Lexes.unique {cs : List Char} {ks ks' : List Kind} (lexes : Lexes cs ks)
    (lexes' : Lexes cs ks') : ks = ks' := by
  obtain ⟨tokens, lexed, kinds⟩ := lexes.exists_tokens 0
  obtain ⟨tokens', lexed', kinds'⟩ := lexes'.exists_tokens 0
  obtain rfl : tokens = tokens' := Except.ok.inj (lexed.symm.trans lexed')
  exact List.append_cancel_right (kinds.symm.trans kinds')

section Lexeme

variable {c : Char} {r : List Char} {kind : Kind} {extra : Nat}

theorem wordKind_ne (word : List Char) :
    wordKind word ≠ .eof ∧ ∀ digits, wordKind word ≠ .number digits := by
  simp only [wordKind]
  split_ifs <;> simp

theorem singleKind?_ne :
    singleKind? c ≠ some .eof ∧ ∀ digits, singleKind? c ≠ some (.number digits) := by
  simp only [singleKind?]
  split <;> simp

theorem numberTail_le (seen : Bool) (cs : List Char) : numberTail seen cs ≤ cs.length := by
  induction cs generalizing seen with
  | nil => exact le_rfl
  | cons c r ih =>
    simp only [numberTail, List.length_cons]
    split_ifs
    · exact Nat.succ_le_succ (ih seen)
    · exact Nat.succ_le_succ (ih true)
    · exact Nat.zero_le _

/-- The ways in which a token begins and what it takes: an operator of two characters, one
character, a text up to its closing quote, a number, a word. -/
theorem lexeme_cases (here : lexeme c r = .ok (kind, extra)) :
    (∃ d r' op, r = d :: r' ∧ kind = .operator op ∧ extra = 1) ∨
    (singleKind? c = some kind ∧ extra = 0) ∨
    (∃ content, kind = .text content ∧ extra ≤ r.length) ∨
    ((isAsciiDigit c || c == '-' && startsWithDigit r) = true ∧
      kind = .number (String.ofList (c :: r.take extra)) ∧ extra = numberTail false r) ∨
    (∃ word, kind = wordKind word ∧ extra = (r.takeWhile continuesName).length) := by
  simp only [lexeme] at here
  split at here
  · rename_i op found
    cases here
    cases r with
    | nil => cases found
    | cons d r' => exact .inl ⟨d, r', op, rfl, rfl, rfl⟩
  · split at here
    · rename_i single
      cases here
      exact .inr (.inl ⟨single, rfl⟩)
    · split_ifs at here with _ closed number
      · cases here
        exact .inr (.inr (.inl ⟨_, rfl, closed⟩))
      · cases here
        exact .inr (.inr (.inr (.inl ⟨number, rfl, rfl⟩)))
      · cases here
        exact .inr (.inr (.inr (.inr ⟨_, rfl, rfl⟩)))

theorem lexeme_ne_eof (here : lexeme c r = .ok (kind, extra)) : kind ≠ .eof := by
  obtain ⟨_, _, _, -, rfl, -⟩ | ⟨single, -⟩ | ⟨_, rfl, -⟩ | ⟨-, rfl, -⟩ | ⟨word, rfl, -⟩ :=
    lexeme_cases here
  · exact Kind.noConfusion
  · rintro rfl
    exact singleKind?_ne.1 single
  · exact Kind.noConfusion
  · exact Kind.noConfusion
  · exact (wordKind_ne word).1

/-- A token takes no more characters than there are. -/
theorem lexeme_extra_le (here : lexeme c r = .ok (kind, extra)) : extra ≤ r.length := by
  obtain ⟨_, _, _, rfl, -, rfl⟩ | ⟨-, rfl⟩ | ⟨_, -, closed⟩ | ⟨-, -, rfl⟩ | ⟨_, -, rfl⟩ :=
    lexeme_cases here
  · simp
  · exact Nat.zero_le _
  · exact closed
  · exact numberTail_le false r
  · exact (List.takeWhile_prefix _).length_le

end Lexeme

theorem Lexes.eof_notMem {cs : List Char} {ks : List Kind} (lexes : Lexes cs ks) :
    Kind.eof ∉ ks := by
  induction lexes with
  | nil => simp
  | blank _ _ ih => exact ih
  | token _ here _ ih =>
    intro member
    rcases List.mem_cons.mp member with same | later
    · exact lexeme_ne_eof here same.symm
    · exact ih later

section Numerals

/-- ASCII digits. -/
def AllDigits (ds : List Char) : Prop :=
  ∀ d ∈ ds, isAsciiDigit d = true

/-- Digits with or without a point and digits after it. -/
def IsDecimal (cs : List Char) : Prop :=
  ∃ ds tail, cs = ds ++ tail ∧ AllDigits ds ∧ (tail = [] ∨ ∃ fs, tail = '.' :: fs ∧ AllDigits fs)

theorem allDigits_nil : AllDigits [] := by simp [AllDigits]

theorem AllDigits.cons {d : Char} {ds : List Char} (digit : isAsciiDigit d = true)
    (digits : AllDigits ds) : AllDigits (d :: ds) :=
  List.forall_mem_cons.mpr ⟨digit, digits⟩

theorem isAsciiDigit_iff {c : Char} : isAsciiDigit c = true ↔ 48 ≤ c.toNat ∧ c.toNat ≤ 57 := by
  simp [isAsciiDigit, Char.le_def, UInt32.le_iff_toNat_le]

theorem isBlank_of_isAsciiDigit {c : Char} (digit : isAsciiDigit c = true) : isBlank c = false := by
  obtain ⟨low, high⟩ := isAsciiDigit_iff.mp digit
  simp only [isBlank, Bool.or_eq_false_iff, Bool.and_eq_false_iff, decide_eq_false_iff_not,
    beq_eq_false_iff_ne]
  omega

theorem allDigits_numberTail (cs : List Char) : AllDigits (cs.take (numberTail true cs)) := by
  induction cs with
  | nil => exact allDigits_nil
  | cons c r ih =>
    simp only [numberTail]
    split_ifs with digit point
    · exact ih.cons digit
    · simp at point
    · exact allDigits_nil

theorem isDecimal_numberTail (cs : List Char) : IsDecimal (cs.take (numberTail false cs)) := by
  induction cs with
  | nil => exact ⟨[], [], rfl, allDigits_nil, .inl rfl⟩
  | cons c r ih =>
    simp only [numberTail]
    split_ifs with digit point
    · obtain ⟨ds, tail, same, digits, rest⟩ := ih
      exact ⟨c :: ds, tail, by simp [same], digits.cons digit, rest⟩
    · obtain rfl : c = '.' := by simp at point; exact point.1
      exact ⟨[], _, rfl, allDigits_nil, .inr ⟨_, rfl, allDigits_numberTail r⟩⟩
    · exact ⟨[], [], rfl, allDigits_nil, .inl rfl⟩

theorem digitRun_append {ds rest : List Char} (digits : AllDigits ds) {b : Bool}
    (stops : ∀ b, Number.digitRun b rest = ([], rest)) :
    Number.digitRun b (ds ++ rest) = (ds.map fun d => d.toNat - '0'.toNat, rest) := by
  induction ds generalizing b with
  | nil => exact stops b
  | cons d ds ih =>
    obtain ⟨digit, digits⟩ := List.forall_mem_cons.mp digits
    simp [Number.digitRun, digitValue?_of_isAsciiDigit digit, ih digits]

theorem digitRun_point (fs : List Char) (b : Bool) :
    Number.digitRun b ('.' :: fs) = ([], '.' :: fs) := by
  simp [Number.digitRun, show digitValue? '.' = none by decide]

theorem digitRun_eq {ds : List Char} (digits : AllDigits ds) :
    Number.digitRun false ds = (ds.map fun d => d.toNat - '0'.toNat, []) := by
  have run := digitRun_append digits (b := false) fun b => (rfl : Number.digitRun b [] = ([], []))
  rwa [List.append_nil] at run

theorem readMagnitude?_isSome {cs : List Char} (decimal : IsDecimal cs)
    (first : startsWithDigit cs = true) (negative : Bool) :
    (Number.readMagnitude? negative cs).isSome = true := by
  obtain ⟨ds, tail, rfl, digits, rest⟩ := decimal
  have some : ds ≠ [] := by
    rintro rfl
    rcases rest with rfl | ⟨fs, rfl, -⟩ <;> cases first
  rcases rest with rfl | ⟨fs, rfl, more⟩
  · simp [Number.readMagnitude?, digitRun_eq digits, Number.readExponent?, some]
  · simp [Number.readMagnitude?, digitRun_append digits (digitRun_point fs), digitRun_eq more,
      Number.readExponent?, some]

theorem trimNumber_eq_self {cs : List Char} (visible : ∀ c ∈ cs, isBlank c = false) :
    Number.trimNumber cs = cs := by
  have kept : ∀ xs : List Char, (∀ c ∈ xs, isBlank c = false) →
      xs.dropWhile Number.isNumberBlank = xs := by
    intro xs visible
    cases xs with
    | nil => rfl
    | cons x xs => simp [Number.isNumberBlank, visible x List.mem_cons_self]
  rw [Number.trimNumber, kept cs visible, kept cs.reverse (by simpa using visible),
    List.reverse_reverse]

theorem IsDecimal.visible {cs : List Char} (decimal : IsDecimal cs) :
    ∀ c ∈ cs, isBlank c = false := by
  obtain ⟨ds, tail, rfl, digits, rest⟩ := decimal
  intro c member
  rcases List.mem_append.mp member with inside | after
  · exact isBlank_of_isAsciiDigit (digits c inside)
  · rcases rest with rfl | ⟨fs, rfl, more⟩
    · cases after
    · rcases List.mem_cons.mp after with rfl | inside
      · decide
      · exact isBlank_of_isAsciiDigit (more c inside)

theorem readFloat?_isSome {cs : List Char} {sign : Bool} {digits : List Char}
    (visible : ∀ c ∈ cs, isBlank c = false) (signed : Number.splitSign cs = (sign, digits))
    (decimal : IsDecimal digits) (first : startsWithDigit digits = true) :
    (Number.readFloat? cs).isSome = true := by
  simp only [Number.readFloat?, trimNumber_eq_self visible, signed]
  split_ifs
  · rfl
  · rfl
  · exact readMagnitude?_isSome decimal first sign

theorem startsWithDigit_take {r : List Char} (first : startsWithDigit r = true) :
    startsWithDigit (r.take (numberTail false r)) = true := by
  cases r with
  | nil => cases first
  | cons d r =>
    have digit : isAsciiDigit d = true := first
    simp [numberTail, digit, startsWithDigit]

/-- A token that is a number can be read. -/
theorem readFloat?_lexeme {c : Char} {r : List Char}
    (begins : (isAsciiDigit c || c == '-' && startsWithDigit r) = true) :
    (Number.readFloat? (c :: r.take (numberTail false r))).isSome = true := by
  have decimal := isDecimal_numberTail r
  cases digit : isAsciiDigit c with
  | true =>
    have whole : IsDecimal (c :: r.take (numberTail false r)) := by
      obtain ⟨ds, tail, same, digits, rest⟩ := decimal
      exact ⟨c :: ds, tail, by simp [same], digits.cons digit, rest⟩
    have unsigned : Number.splitSign (c :: r.take (numberTail false r)) =
        (false, c :: r.take (numberTail false r)) := by
      rw [Number.splitSign]
      all_goals
        intro _ same
        cases same
        cases digit
    exact readFloat?_isSome whole.visible unsigned whole digit
  | false =>
    simp only [digit, Bool.false_or, Bool.and_eq_true, beq_iff_eq] at begins
    obtain ⟨rfl, first⟩ := begins
    refine readFloat?_isSome ?_ rfl decimal (startsWithDigit_take first)
    exact List.forall_mem_cons.mpr ⟨by decide, decimal.visible⟩

end Numerals

theorem Lexes.readable {cs : List Char} {ks : List Kind} (lexes : Lexes cs ks) {digits : String}
    (member : .number digits ∈ ks) : (Number.readFloat? digits.toList).isSome = true := by
  induction lexes with
  | nil => cases member
  | blank _ _ ih => exact ih member
  | @token c r kind extra ks _ here _ ih =>
    rcases List.mem_cons.mp member with same | later
    · obtain ⟨_, _, _, -, rfl, -⟩ | ⟨single, -⟩ | ⟨_, rfl, -⟩ | ⟨begins, rfl, rfl⟩ |
        ⟨word, rfl, -⟩ := lexeme_cases here
      · cases same
      · cases same
        exact absurd single (singleKind?_ne.2 digits)
      · cases same
      · cases same
        simpa using readFloat?_lexeme begins
      · exact absurd same.symm ((wordKind_ne word).2 digits)
    · exact ih later

section Separation

/-- A character that goes on with no token begun before it, except inside a text. -/
structure Separates (d : Char) : Prop where
  word : continuesName d = false
  number : isAsciiDigit d = false
  pair : ∀ c, pairOperator? c d = none

theorem pairOperator?_eq_none {c d : Char} (other : d ∉ ['=', '&', '|']) :
    pairOperator? c d = none := by
  simp only [List.mem_cons, List.not_mem_nil, not_or] at other
  simp only [pairOperator?]
  split <;> simp_all

/-- The code points of the blanks. -/
def blankCodes : List Nat :=
  [9, 10, 11, 12, 13, 28, 29, 30, 31, 32, 0x85, 0xA0, 0x1680, 0x2000, 0x2001, 0x2002, 0x2003,
    0x2004, 0x2005, 0x2006, 0x2007, 0x2008, 0x2009, 0x200A, 0x2028, 0x2029, 0x202F, 0x205F, 0x3000]

theorem mem_blankCodes {d : Char} (blank : isBlank d = true) : d.toNat ∈ blankCodes := by
  simp only [isBlank, Bool.or_eq_true, Bool.and_eq_true, decide_eq_true_eq, beq_iff_eq] at blank
  simp only [blankCodes, List.mem_cons, List.not_mem_nil]
  omega

theorem separates_of_isBlank {d : Char} (blank : isBlank d = true) : Separates d := by
  have apart : ∀ n ∈ blankCodes,
      continuesName (Char.ofNat n) = false ∧ Char.ofNat n ∉ ['=', '&', '|'] := by
    decide +kernel
  obtain ⟨word, sign⟩ := apart d.toNat (mem_blankCodes blank)
  rw [Char.ofNat_toNat] at word sign
  refine ⟨word, ?_, fun c => pairOperator?_eq_none sign⟩
  by_contra digit
  simp [isBlank_of_isAsciiDigit (Bool.not_eq_false _ ▸ digit)] at blank

theorem separates_lparen : Separates '(' :=
  ⟨by decide, by decide, fun _ => pairOperator?_eq_none (by decide)⟩

theorem separates_rparen : Separates ')' :=
  ⟨by decide, by decide, fun _ => pairOperator?_eq_none (by decide)⟩

theorem separates_comma : Separates ',' :=
  ⟨by decide, by decide, fun _ => pairOperator?_eq_none (by decide)⟩

variable {d : Char} {s : List Char}

theorem takeWhile_append_cons_of_neg {p : Char → Bool} (fails : p d = false) (r : List Char) :
    (r ++ d :: s).takeWhile p = r.takeWhile p := by
  induction r with
  | nil => simp [fails]
  | cons c r ih => simp [List.takeWhile_cons, ih]

theorem numberTail_append (apart : Separates d) (seen : Bool) (r : List Char) :
    numberTail seen (r ++ d :: s) = numberTail seen r := by
  have point : d ≠ '.' := by
    rintro rfl
    exact absurd apart.word (by decide)
  induction r generalizing seen with
  | nil => simp [numberTail, apart.number, point]
  | cons c r ih =>
    have first : startsWithDigit (r ++ d :: s) = startsWithDigit r := by
      cases r with
      | nil => exact apart.number
      | cons => rfl
    simp only [List.cons_append, numberTail, ih, first]

theorem takeWhile_eq_of_not_lt {p : Char → Bool} {r : List Char}
    (all : ¬(r.takeWhile p).length < r.length) : r.takeWhile p = r :=
  (List.takeWhile_prefix p).eq_of_length
    (Nat.le_antisymm (List.takeWhile_prefix p).length_le (Nat.le_of_not_lt all))

/-- What stands after a separating character changes no token before it, unless it closes a text. -/
theorem lexeme_append {c : Char} {r : List Char} (apart : Separates d)
    (stays : (∃ found, lexeme c r = .ok found) ∨ '\'' ∉ d :: s) :
    lexeme c (r ++ d :: s) = lexeme c r := by
  have pair : (r ++ d :: s).head?.bind (pairOperator? c) = r.head?.bind (pairOperator? c) := by
    cases r with
    | nil => exact apart.pair c
    | cons => rfl
  have first : startsWithDigit (r ++ d :: s) = startsWithDigit r := by
    cases r with
    | nil => exact apart.number
    | cons => rfl
  have word : (r ++ d :: s).takeWhile continuesName = r.takeWhile continuesName :=
    takeWhile_append_cons_of_neg apart.word r
  have digits : (r ++ d :: s).take (numberTail false r) = r.take (numberTail false r) :=
    List.take_append_of_le_length (numberTail_le false r)
  have longer : r.length < (r ++ d :: s).length := by simp
  simp only [lexeme, pair, first, word, digits, numberTail_append apart] at stays ⊢
  cases found : r.head?.bind (pairOperator? c) with
  | some op => rfl
  | none =>
    cases single : singleKind? c with
    | some kind => rfl
    | none =>
      by_cases quote : c = '\''
      · simp only [found, single, if_pos quote] at stays ⊢
        by_cases closed : (r.takeWhile (· ≠ '\'')).length < r.length
        · have kept : (r ++ d :: s).takeWhile (· ≠ '\'') = r.takeWhile (· ≠ '\'') := by
            rw [List.takeWhile_append, if_neg closed.ne]
          rw [kept, if_pos closed, if_pos (closed.trans longer)]
        · rw [if_neg closed] at stays ⊢
          have free : '\'' ∉ d :: s := stays.resolve_left (by simp)
          have kept : (r ++ d :: s).takeWhile (· ≠ '\'') = r ++ d :: s := by
            rw [List.takeWhile_append, takeWhile_eq_of_not_lt closed, if_pos rfl]
            congr 1
            exact List.takeWhile_eq_self_iff.mpr fun x member => by
              simpa using ne_of_mem_of_not_mem member free
          rw [kept, if_neg (lt_irrefl _)]
      · simp only [if_neg quote]

/-- Tokens on both sides of a separating character are found apart. -/
theorem Lexes.append {cs : List Char} {ks rs : List Kind} (lexes : Lexes cs ks)
    (apart : Separates d) (others : Lexes (d :: s) rs) : Lexes (cs ++ d :: s) (ks ++ rs) := by
  induction lexes with
  | nil => exact others
  | blank skipped _ ih => exact .blank skipped ih
  | @token c r kind extra ks visible here _ ih =>
    have whole : lexeme c (r ++ d :: s) = .ok (kind, extra) := by
      rw [lexeme_append apart (.inl ⟨_, here⟩), here]
    have after : (r ++ d :: s).drop extra = r.drop extra ++ d :: s :=
      List.drop_append_of_le_length (lexeme_extra_le here)
    exact .token visible whole (after ▸ ih)

theorem lexes_of_append_blank {cs : List Char} {ks : List Kind} (blank : isBlank d = true)
    (lexes : Lexes (cs ++ [d]) ks) : Lexes cs ks := by
  have apart := separates_of_isBlank blank
  have free : '\'' ∉ [d] := by
    rintro member
    obtain rfl : '\'' = d := by simpa using member
    exact absurd blank (by decide)
  generalize whole : cs ++ [d] = all at lexes
  induction lexes generalizing cs with
  | nil => simp at whole
  | blank skipped rest ih =>
    cases cs with
    | nil =>
      cases whole
      exact rest
    | cons c r =>
      obtain ⟨rfl, rest⟩ := List.cons.inj whole
      exact .blank skipped (ih rest)
  | @token c _ kind extra ks visible here _ ih =>
    cases cs with
    | nil =>
      cases whole
      exact absurd (visible.symm.trans blank) Bool.false_ne_true
    | cons c r =>
      obtain ⟨rfl, rfl⟩ := List.cons.inj whole
      rw [List.append_eq, lexeme_append apart (.inr free)] at here
      exact .token visible here (ih (List.drop_append_of_le_length (lexeme_extra_le here)).symm)

/-- Blanks at both ends of a text change no token. -/
theorem Lexes.trim {cs : List Char} {ks : List Kind} (lexes : Lexes cs ks) :
    Lexes (Text.trim cs) ks := by
  have start : Lexes (Text.trimStart cs) ks := by
    induction cs with
    | nil => exact lexes
    | cons c r ih =>
      rw [Text.trimStart, List.dropWhile_cons]
      split_ifs with blank
      · cases lexes with
        | blank _ rest => exact ih rest
        | token visible => exact absurd (visible.symm.trans blank) Bool.false_ne_true
      · exact lexes
  rw [Text.trim]
  generalize Text.trimStart cs = cs at start
  induction cs using List.reverseRecOn with
  | nil => exact start
  | append_singleton cs d ih =>
    rw [Text.trimEnd, List.reverse_concat, List.dropWhile_cons]
    split_ifs with blank
    · exact ih (lexes_of_append_blank blank start)
    · simpa using start

end Separation

end Drydock.Expr
