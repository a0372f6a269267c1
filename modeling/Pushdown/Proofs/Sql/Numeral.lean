import Pushdown.Proofs.Sql.Phrase
import Pushdown.Syntax.LiteralFormat

/-!
# Numbers as tokens

Numbers are written into a statement as they were given. A text in one of their formats is one
number token, behind a sign if it has one, and so is a number that is printed.
-/

namespace Pushdown

namespace Lexer

theorem isWordChar_of_isDigit {c : Char} (digit : c.isDigit) : isWordChar c := by
  simp [isWordChar, Char.isAlphanum, digit]

theorem start_digit {c : Char} (digit : c.isDigit) : start c = ([], .number [c]) := by
  have visible : c.isWhitespace = false := by
    refine Bool.eq_false_iff.mpr fun blank => ?_
    simp only [Char.isWhitespace, Bool.or_eq_true, decide_eq_true_eq] at blank
    rcases blank with ((rfl | rfl) | rfl) | rfl <;> contradiction
  simp [start, visible, digit]

namespace Pending

/-- Digits and points go on with a number. -/
theorem run_number (read : List Char) {chars : List Char}
    (digits : chars.all fun c => c.isDigit || c == '.') :
    (number read).run chars = ([], number (read ++ chars)) := by
  induction chars generalizing read with
  | nil => simp [run]
  | cons c chars ih =>
    rw [List.all_cons, Bool.and_eq_true, Bool.or_eq_true] at digits
    have joins : (number read).joined? c = some ([], number (read ++ [c])) := by
      rcases digits.1 with digit | point
      · simp [joined?, isWordChar_of_isDigit digit]
      · simp [joined?, eq_of_beq point]
    simp [run, next, joins, ih _ digits.2]

/-- An exponent goes on with a number. -/
theorem run_exponent (read : List Char) {mark : Char} (letter : mark = 'e' ∨ mark = 'E')
    {rest : List Char} (digits : (Text.dropSign rest).all Char.isDigit) :
    (number read).run (mark :: rest) = ([], number (read ++ mark :: rest)) := by
  have joins : (number read).joined? mark = some ([], number (read ++ [mark])) := by
    rcases letter with rfl | rfl <;> simp [joined?, isWordChar]
  have takes : takesSign (read ++ [mark]) := by
    rcases letter with rfl | rfl <;> simp [takesSign]
  have tail {chars : List Char} (read : List Char) (digits : chars.all Char.isDigit) :
      (number read).run chars = ([], number (read ++ chars)) := by
    refine run_number read ?_
    rw [List.all_eq_true] at digits ⊢
    intro c member
    simp [digits c member]
  have signed {c : Char} (sign : c = '+' ∨ c = '-') :
      (number (read ++ [mark])).joined? c = some ([], number (read ++ [mark] ++ [c])) := by
    rcases sign with rfl | rfl <;> simp [joined?, takes]
  have rest_run : (number (read ++ [mark])).run rest = ([], number (read ++ [mark] ++ rest)) := by
    unfold Text.dropSign at digits
    split at digits
    · rename_i rest
      simp only [run, next, signed (.inl rfl), tail _ digits]
      simp
    · rename_i rest
      simp only [run, next, signed (.inr rfl), tail _ digits]
      simp
    · exact tail _ digits
  simp only [run, next, joins, rest_run]
  simp

end Pending

/-- The point and the digits behind it, or nothing. -/
def IsFraction (chars : List Char) : Prop :=
  chars = [] ∨ ∃ digits, chars = '.' :: digits ∧ digits.all Char.isDigit

/-- The mark and the digits of an exponent, or nothing. -/
def IsExponent (chars : List Char) : Prop :=
  chars = [] ∨ ∃ mark rest, chars = mark :: rest ∧ (mark = 'e' ∨ mark = 'E') ∧
    (Text.dropSign rest).all Char.isDigit

theorem digitOrPoint_of_isDigit {chars : List Char} (digits : chars.all Char.isDigit) :
    chars.all fun c => c.isDigit || c == '.' := by
  rw [List.all_eq_true] at digits ⊢
  intro c member
  simp [digits c member]

/-- A number without a sign is one token. -/
theorem Pending.run_unsigned {whole fraction exponent : List Char}
    (digits : whole.all Char.isDigit) (isFraction : IsFraction fraction)
    (isExponent : IsExponent exponent)
    (nonempty : whole ≠ [] ∨ ∃ d rest, fraction = '.' :: d :: rest) :
    nothing.run (whole ++ fraction ++ exponent) = ([], number (whole ++ fraction ++ exponent)) := by
  -- the digits and the point come first, whichever of them starts the number
  have front : nothing.run (whole ++ fraction) = ([], number (whole ++ fraction)) := by
    have dotted : fraction.all fun c => c.isDigit || c == '.' := by
      rcases isFraction with rfl | ⟨rest, rfl, digits⟩
      · rfl
      · simpa using digitOrPoint_of_isDigit digits
    cases whole with
    | cons d whole =>
      rw [List.all_cons, Bool.and_eq_true] at digits
      have rest : (whole ++ fraction).all fun c => c.isDigit || c == '.' := by
        rw [List.all_append, digitOrPoint_of_isDigit digits.2, dotted]
        rfl
      simp [run, next, joined?, start_digit digits.1, tokens, run_number [d] rest]
    | nil =>
      rcases nonempty with absurdity | ⟨d, rest, rfl⟩
      · exact absurd rfl absurdity
      · rcases isFraction with absurdity | ⟨_, same, digits⟩
        · contradiction
        · obtain ⟨-, rfl⟩ := List.cons.inj same
          rw [List.all_cons, Bool.and_eq_true] at digits
          have point : start '.' = ([], .lone '.') := by decide
          simp [run, next, joined?, point, tokens, digits.1,
            run_number ['.', d] (digitOrPoint_of_isDigit digits.2)]
  rw [run_append, front]
  rcases isExponent with rfl | ⟨mark, rest, rfl, letter, digits⟩
  · simp [run]
  · rw [run_exponent _ letter digits]
    simp

end Lexer

theorem isDigit_toDigits (n : Nat) : (Nat.toDigits 10 n).all Char.isDigit := by
  rw [List.all_eq_true]
  exact fun c member => Nat.isDigit_of_mem_toDigits (by decide) (by decide) member

/-- A number that is not negative is printed as its digits. -/
theorem toString_of_nonneg {x : Int} (nonneg : 0 ≤ x) :
    toString x = String.ofList (Nat.toDigits 10 x.toNat) := by
  obtain ⟨n, rfl⟩ := Int.eq_ofNat_of_zero_le nonneg
  exact Nat.repr_eq_ofList_toDigits

/-- A number that is not negative is printed as one token. -/
theorem Lexer.plainTokens_toString {x : Int} (nonneg : 0 ≤ x) :
    ∃ body, plainTokens (toString x).toList = [.number body] := by
  have run := Pending.run_unsigned (isDigit_toDigits x.toNat) (.inl rfl) (.inl rfl)
    (.inl Nat.toDigits_ne_nil)
  rw [List.append_nil, List.append_nil] at run
  refine ⟨String.ofList (Nat.toDigits 10 x.toNat), ?_⟩
  rw [toString_of_nonneg nonneg, String.toList_ofList, plainTokens, run]
  rfl

/-- One number token, behind a sign if there is one. -/
structure IsNumeral (text : String) : Prop where
  common : text.toList.all Lexer.isCommon
  tokens : ∃ signs body, Lexer.plainTokens text.toList = signs ++ [.number body] ∧
    (signs = [] ∨ signs = [.symbol '+'] ∨ signs = [.symbol '-'])

namespace IsNumeral

open Lexer

/-- A text without its sign is a numeral if it is one token. -/
theorem of_unsigned {text : String} {c : Char} {body : List Char}
    (chars : Text.dropSign text.toList = c :: body) (head : c.isDigit ∨ c = '.')
    (common : (c :: body).all isCommon)
    (run : Pending.nothing.run (c :: body) = ([], .number (c :: body))) : IsNumeral text := by
  have unsigned : c ≠ '-' := by
    rintro rfl
    rcases head with digit | point <;> contradiction
  unfold Text.dropSign at chars
  split at chars
  · rename_i rest same
    subst chars
    refine ⟨by simp [same, common, isCommon, isWordChar], [.symbol '+'], String.ofList (c :: body),
      ?_, .inr (.inl rfl)⟩
    have plus : start '+' = ([.symbol '+'], .nothing) := by decide
    rw [same, plainTokens, Pending.run, Pending.next]
    simp [Pending.joined?, plus, Pending.tokens, run]
  · rename_i rest same
    subst chars
    refine ⟨by simp [same, common, isCommon, isWordChar], [.symbol '-'], String.ofList (c :: body),
      ?_, .inr (.inr rfl)⟩
    have minus : start '-' = ([], .lone '-') := by decide
    have fresh : (Pending.lone '-').run (c :: body) =
        (.symbol '-' :: (Pending.nothing.run (c :: body)).1,
          (Pending.nothing.run (c :: body)).2) := by
      simp [Pending.run, Pending.next, Pending.joined?, unsigned, Pending.tokens]
    rw [same, plainTokens, Pending.run, Pending.next]
    simp [Pending.joined?, minus, Pending.tokens, fresh, run]
  · rename_i same
    refine ⟨by rw [chars]; exact common, [], String.ofList (c :: body), ?_, .inl rfl⟩
    rw [chars, plainTokens, run]
    simp [Pending.tokens]

/-- A sign, digits, a fraction and an exponent make a numeral. -/
theorem of_parts {text : String} {whole fraction exponent : List Char}
    (chars : Text.dropSign text.toList = whole ++ fraction ++ exponent)
    (digits : whole.all Char.isDigit) (isFraction : IsFraction fraction)
    (isExponent : IsExponent exponent)
    (nonempty : whole ≠ [] ∨ ∃ d rest, fraction = '.' :: d :: rest) : IsNumeral text := by
  have run := Pending.run_unsigned digits isFraction isExponent nonempty
  have common_digits {chars : List Char} (digits : chars.all Char.isDigit) :
      chars.all isCommon := by
    rw [List.all_eq_true] at digits ⊢
    intro c member
    simp [isCommon, isWordChar_of_isDigit (digits c member)]
  have common : (whole ++ fraction ++ exponent).all isCommon := by
    rw [List.all_append, List.all_append, common_digits digits, Bool.true_and, Bool.and_eq_true]
    constructor
    · rcases isFraction with rfl | ⟨rest, rfl, digits⟩
      · rfl
      · rw [List.all_cons, common_digits digits]
        decide
    · rcases isExponent with rfl | ⟨mark, rest, rfl, letter, digits⟩
      · rfl
      · have known : isCommon mark := by rcases letter with rfl | rfl <;> decide
        rw [List.all_cons, known, Bool.true_and]
        unfold Text.dropSign at digits
        split at digits
        · rw [List.all_cons, common_digits digits]
          decide
        · rw [List.all_cons, common_digits digits]
          decide
        · exact common_digits digits
  cases whole with
  | cons d whole =>
    rw [List.all_cons, Bool.and_eq_true] at digits
    exact of_unsigned chars (.inl digits.1) common run
  | nil =>
    rcases nonempty with absurdity | ⟨d, rest, rfl⟩
    · exact absurd rfl absurdity
    · exact of_unsigned chars (.inr rfl) common run

theorem of_isExactNumeric {text : String} (h : LiteralFormat.isExactNumeric text.toList) :
    IsNumeral text := by
  simp only [LiteralFormat.isExactNumeric, Bool.and_eq_true, Bool.not_eq_true',
    List.isEmpty_eq_false_iff] at h
  obtain ⟨nonempty, rest⟩ := h
  have parts : Text.dropSign text.toList = (Text.dropSign text.toList).takeWhile Char.isDigit ++
      (Text.dropSign text.toList).dropWhile Char.isDigit ++ [] := by simp
  refine of_parts parts List.all_takeWhile ?_ (.inl rfl) (.inl nonempty)
  split at rest
  · rename_i none
    exact .inl none
  · rename_i fraction some
    rw [Bool.and_eq_true] at rest
    exact .inr ⟨fraction, some, rest.2⟩
  · contradiction

theorem eq_of_toLower {c : Char} (same : c.toLower = 'e') : c = 'e' ∨ c = 'E' := by
  unfold Char.toLower at same
  split at same
  · rename_i capital
    have bound : c.val.toNat ≤ 90 := capital.2
    have value : c.val + ('a'.val - 'A'.val) = 'e'.val := congrArg Char.val same
    have number : (c.val + ('a'.val - 'A'.val)).toNat = 101 := congrArg UInt32.toNat value
    rw [UInt32.toNat_add] at number
    have difference : ('a'.val - 'A'.val).toNat = 32 := by decide
    refine .inr (Char.ext (UInt32.toNat.inj ?_))
    change c.val.toNat = 69
    omega
  · exact .inl same

theorem digits_of_readExponent? {rest : List Char} {n : Int}
    (h : Text.readExponent? rest = some n) : (Text.dropSign rest).all Char.isDigit := by
  simp only [Text.readExponent?] at h
  split at h
  · contradiction
  · rename_i digits
    simp only [Bool.or_eq_true, Bool.not_eq_true', not_or, Bool.not_eq_false] at digits
    exact digits.2

/-- The parts of a number that can be read. -/
theorem parts_of_read {chars : List Char} {d : Text.Decimal} (h : Text.Decimal.read? chars = some d) :
    ∃ whole fraction exponent, Text.dropSign chars = whole ++ fraction ++ exponent ∧
      whole.all Char.isDigit ∧ IsFraction fraction ∧ IsExponent exponent ∧
      (whole ≠ [] ∨ ∃ d rest, fraction = '.' :: d :: rest) := by
  have body : Text.dropSign chars = (Text.dropSign chars).takeWhile Char.isDigit ++
      (Text.dropSign chars).dropWhile Char.isDigit := by simp
  have exponent {tail : List Char} {mark : Char} {rest : List Char} {n : Int}
      (some : tail = mark :: rest) (letter : mark.toLower == 'e')
      (read : Text.readExponent? rest = .some n) : IsExponent tail :=
    .inr ⟨mark, rest, some, eq_of_toLower (eq_of_beq letter), digits_of_readExponent? read⟩
  simp only [Text.Decimal.read?] at h
  split at h
  · rename_i rest pointed
    split at h
    · contradiction
    · rename_i nonempty
      simp only [Option.bind_eq_bind, Option.bind_eq_some_iff] at h
      obtain ⟨digits, -, h⟩ := h
      refine ⟨(Text.dropSign chars).takeWhile Char.isDigit, '.' :: rest.takeWhile Char.isDigit, rest.dropWhile Char.isDigit, ?_,
        List.all_takeWhile, .inr ⟨_, rfl, List.all_takeWhile⟩, ?_, ?_⟩
      · simpa [pointed] using body
      · split at h
        · exact .inl ‹_›
        · split at h
          · obtain ⟨n, read, -⟩ := Option.bind_eq_some_iff.mp h
            exact exponent ‹_› ‹_› read
          · simp at h
      · simp only [Bool.and_eq_true, List.isEmpty_iff] at nonempty
        by_cases whole : (Text.dropSign chars).takeWhile Char.isDigit = []
        · obtain ⟨d, more, digits⟩ := List.exists_cons_of_ne_nil fun none => nonempty ⟨whole, none⟩
          exact .inr ⟨d, more, by rw [digits]⟩
        · exact .inl whole
  · split at h
    · contradiction
    · rename_i nonempty
      simp only [Option.bind_eq_bind, Option.bind_eq_some_iff] at h
      obtain ⟨digits, -, h⟩ := h
      refine ⟨(Text.dropSign chars).takeWhile Char.isDigit, [],
        (Text.dropSign chars).dropWhile Char.isDigit, ?_, List.all_takeWhile, .inl rfl, ?_, ?_⟩
      · rw [List.append_nil]
        exact body
      · split at h
        · exact .inl ‹_›
        · split at h
          · obtain ⟨n, read, -⟩ := Option.bind_eq_some_iff.mp h
            exact exponent ‹_› ‹_› read
          · simp at h
      · exact .inl (by simpa using nonempty)

theorem of_isFiniteDouble {text : String} (h : Text.isFiniteDouble text.toList) :
    IsNumeral text := by
  unfold Text.isFiniteDouble at h
  split at h
  · rename_i d read
    obtain ⟨whole, fraction, exponent, chars, digits, isFraction, isExponent, nonempty⟩ :=
      parts_of_read read
    exact of_parts chars digits isFraction isExponent nonempty
  · contradiction

/-- A printed number is a numeral. -/
theorem toString_int (n : Int) : IsNumeral (toString n) := by
  have digits := isDigit_toDigits
  have unsigned (m : Nat) : Text.dropSign (Nat.toDigits 10 m) = Nat.toDigits 10 m := by
    have first := digits m
    unfold Text.dropSign
    split
    · rename_i same
      simp [same] at first
    · rename_i same
      simp [same] at first
    · rfl
  have chars : ∃ m, Text.dropSign (toString n).toList = Nat.toDigits 10 m := by
    rw [Int.toString_eq_repr, Int.repr_eq_if]
    split
    · exact ⟨n.toNat, by simp [Nat.repr_eq_ofList_toDigits, unsigned]⟩
    · exact ⟨(-n).toNat, by simp [Nat.repr_eq_ofList_toDigits, Text.dropSign]⟩
  obtain ⟨m, chars⟩ := chars
  refine of_parts (by simpa using chars) (digits m) (.inl rfl) (.inl rfl) (.inl ?_)
  exact Nat.toDigits_ne_nil

/-- A numeral holds no marks and no comment. -/
theorem plain {p : Profile} (marks : HasMarks p) {text : String} (h : IsNumeral text) :
    IsPlainText p text := by
  obtain ⟨signs, body, tokens, sign⟩ := h.tokens
  refine ⟨?_, ?_⟩
  · have common := h.common
    rw [List.all_eq_true] at common ⊢
    exact fun c member => marks.common c (common c member)
  · rw [tokens]
    rcases sign with rfl | rfl | rfl <;> simp [Token.isHarmless]

/-- A numeral groups nothing. -/
theorem nested {text : String} (h : IsNumeral text) (quiet : Bool) (opened : List Bracket) :
    nest quiet opened (plainTokens text.toList) = some opened := by
  obtain ⟨signs, body, tokens, sign⟩ := h.tokens
  rw [tokens]
  rcases sign with rfl | rfl | rfl <;> simp [nest, Token.mark]

theorem phrase {p : Profile} (marks : HasMarks p) {text : String} (h : IsNumeral text)
    (quoteNames quiet : Bool) : Phrase p quoteNames quiet (Sql.raw text) :=
  .ofText (h.plain marks) (h.nested quiet []) (.inl rfl)

end IsNumeral

end Pushdown
