import Mathlib.Tactic.Linarith
import Pushdown.Proofs.Text.Decimal

/-!
# Whole numbers are read in two bases

Digits with an optional minus sign in front are read in base ten, unless a zero stands in front of
the other digits: then they are taken for base eight. The two readings agree only on numbers below
eight and on numbers that neither of them can read.
-/

namespace Pushdown.Text

/-! ## The same digits in both bases -/

theorem le_ofDigitChars (cs : List Char) (n : ℕ) : n ≤ Nat.ofDigitChars 10 cs n := by
  induction cs generalizing n with
  | nil => exact Nat.le_refl n
  | cons c cs ih =>
    rw [Nat.ofDigitChars_cons]
    have := ih (10 * n + (c.toNat - '0'.toNat))
    omega

/-- Behind a larger number, more digits give a larger number in base ten than in base eight. -/
theorem ofDigitChars_lt (cs : List Char) {m n : ℕ} (less : m < n) :
    Nat.ofDigitChars 8 cs m < Nat.ofDigitChars 10 cs n := by
  induction cs generalizing m n with
  | nil => exact less
  | cons c cs ih =>
    rw [Nat.ofDigitChars_cons, Nat.ofDigitChars_cons]
    apply ih
    omega

/-- From eight on, base eight makes less of the digits. -/
theorem ofDigitChars_eight_lt {cs : List Char} (small : ∀ c ∈ cs, c.toNat - '0'.toNat < 8) {n : ℕ}
    (below : n < 8) (large : 8 ≤ Nat.ofDigitChars 10 cs n) :
    Nat.ofDigitChars 8 cs n < Nat.ofDigitChars 10 cs n := by
  induction cs generalizing n with
  | nil =>
    rw [Nat.ofDigitChars, List.foldl_nil] at large
    omega
  | cons c cs ih =>
    rw [Nat.ofDigitChars_cons] at large
    rw [Nat.ofDigitChars_cons, Nat.ofDigitChars_cons]
    cases n with
    | zero => exact ih (fun d member => small d (List.mem_cons_of_mem c member)) (by
        simpa using small c (by simp)) large
    | succ n =>
      apply ofDigitChars_lt
      omega

/-- Below eight there is nothing to choose between the bases. -/
theorem ofDigitChars_eight_eq {cs : List Char} {n : ℕ} (below : Nat.ofDigitChars 10 cs n < 8) :
    (∀ c ∈ cs, c.toNat - '0'.toNat < 8) ∧ Nat.ofDigitChars 8 cs n = Nat.ofDigitChars 10 cs n := by
  induction cs generalizing n with
  | nil => exact ⟨by simp, rfl⟩
  | cons c cs ih =>
    rw [Nat.ofDigitChars_cons] at below
    obtain ⟨small, same⟩ := ih below
    have least := le_ofDigitChars cs (10 * n + (c.toNat - '0'.toNat))
    have none : 8 * n = 10 * n := by omega
    constructor
    · rw [List.forall_mem_cons]
      exact ⟨by omega, small⟩
    · rw [Nat.ofDigitChars_cons, Nat.ofDigitChars_cons, none, same]

/-- A number in base ten is at most the square of what base eight makes of its digits. -/
theorem ofDigitChars_le_sq (cs : List Char) {m n : ℕ} (le : n ≤ m ^ 2) :
    Nat.ofDigitChars 10 cs n ≤ Nat.ofDigitChars 8 cs m ^ 2 := by
  induction cs generalizing m n with
  | nil => exact le
  | cons c cs ih =>
    rw [Nat.ofDigitChars_cons, Nat.ofDigitChars_cons]
    apply ih
    generalize c.toNat - '0'.toNat = digit
    have square := Nat.le_self_pow (by decide : 2 ≠ 0) digit
    nlinarith [Nat.zero_le (m * digit), Nat.zero_le (m ^ 2)]

/-! ## Whole numbers -/

/-- Digits behind an optional minus sign. -/
structure Whole where
  negative : Bool
  digits : Digits
  nonempty : digits.val ≠ []

namespace Whole

def chars (n : Whole) : List Char := if n.negative then '-' :: n.digits.val else n.digits.val

/-- The number with this sign in front. -/
def signed (n : Whole) (magnitude : ℕ) : ℤ := if n.negative then -magnitude else magnitude

/-- The number that the text means. -/
def value (n : Whole) : ℤ := n.signed n.digits.value

/-- Its digits read in base eight. -/
def octal (n : Whole) : ℤ := n.signed (Nat.ofDigitChars 8 n.digits.val 0)

/-- A zero stands in front of other digits. -/
def Padded (n : Whole) : Prop := ∃ rest, n.digits.val = '0' :: rest ∧ rest ≠ []

/-- All digits are digits of base eight. -/
def IsOctal (n : Whole) : Prop := ∀ c ∈ n.digits.val, c.toNat - '0'.toNat < 8

theorem isOctal_iff {n : Whole} :
    n.IsOctal ↔ n.digits.val.all fun c => c.toNat - '0'.toNat < 8 := by
  simp [IsOctal]

instance (n : Whole) : Decidable n.IsOctal := decidable_of_iff _ isOctal_iff.symm

instance (n : Whole) : Decidable n.Padded :=
  decidable_of_iff (n.digits.val.head? = some '0' ∧ 1 < n.digits.val.length) <| by
    obtain ⟨negative, ⟨cs, digits⟩, nonempty⟩ := n
    cases cs with
    | nil => exact absurd rfl nonempty
    | cons c cs => simp [Padded, List.length_pos_iff]

/-- The value, if it fits into 64 bits. -/
def inTen? (n : Whole) : Option ℤ := if fitsInt64 n.value then some n.value else none

/-- What base eight makes of the digits, if they are digits of it and the number fits into 64
bits. -/
def inEight? (n : Whole) : Option ℤ :=
  if n.IsOctal ∧ fitsInt64 n.octal then some n.octal else none

/-- What is read. -/
def read? (n : Whole) : Option ℤ := if n.Padded then n.inEight? else n.inTen?

/-- The zero in front makes a difference: the value is not below eight, and one of the two bases can
read it. -/
def Misread (n : Whole) : Prop :=
  n.Padded ∧ 8 ≤ n.value.natAbs ∧ ¬ (n.inEight? = none ∧ n.inTen? = none)

variable {n : Whole}

theorem natAbs_signed (n : Whole) (magnitude : ℕ) : (n.signed magnitude).natAbs = magnitude := by
  unfold signed
  split <;> simp

theorem natAbs_value : n.value.natAbs = n.digits.value := n.natAbs_signed _

theorem inEight?_eq_inTen?_iff :
    n.inEight? = n.inTen? ↔ n.value.natAbs < 8 ∨ (n.inEight? = none ∧ n.inTen? = none) := by
  constructor
  · intro same
    by_cases small : n.value.natAbs < 8
    · exact .inl small
    apply Or.inr
    cases ten : n.inTen? with
    | none => exact ⟨same.trans ten, rfl⟩
    | some x =>
      have eight := same.trans ten
      rw [inTen?] at ten
      rw [inEight?] at eight
      split at ten
      · split at eight
        · rename_i octal
          have contrary : n.octal.natAbs = n.value.natAbs :=
            congrArg Int.natAbs ((Option.some.inj eight).trans (Option.some.inj ten).symm)
          rw [natAbs_value] at small contrary
          rw [Whole.octal, natAbs_signed] at contrary
          have less := ofDigitChars_eight_lt octal.1 (by decide) (Nat.le_of_not_lt small)
          rw [Digits.value] at contrary
          omega
        · contradiction
      · contradiction
  · rintro (small | ⟨eight, ten⟩)
    · rw [natAbs_value] at small
      obtain ⟨octal, same⟩ := ofDigitChars_eight_eq small
      have equal : n.octal = n.value := by rw [Whole.octal, same, value, Digits.value]
      have small : n.IsOctal := octal
      simp only [inEight?, inTen?, equal, small, true_and]
    · rw [eight, ten]

/-- What is read is the value exactly if the zero in front makes no difference. -/
theorem read?_eq_inTen?_iff : n.read? = n.inTen? ↔ ¬ n.Misread := by
  rw [Misread, read?]
  by_cases padded : n.Padded
  · rw [if_pos padded, inEight?_eq_inTen?_iff, not_and, not_and_not_right, ← Nat.not_lt]
    constructor
    · rintro (small | none) - large
      · exact absurd small large
      · exact none
    · intro agree
      by_cases small : n.value.natAbs < 8
      · exact .inl small
      · exact .inr (agree padded small)
  · simp [padded]

/-! ### Reading -/

theorem exists_cons (n : Whole) : ∃ c cs, n.digits.val = c :: cs ∧ ∀ d ∈ c :: cs, d.isDigit := by
  obtain ⟨c, cs, split⟩ := List.exists_cons_of_ne_nil n.nonempty
  exact ⟨c, cs, split, split ▸ n.digits.property⟩

/-- Without a point there is no fraction to drop. -/
theorem dropZeroFraction_chars (n : Whole) : dropZeroFraction n.chars = n.chars := by
  have noPoint : ∀ c ∈ n.chars.reverse, c ≠ '.' := by
    rintro _ member rfl
    rw [List.mem_reverse, chars] at member
    have digit : '.' ∉ n.digits.val := by
      intro inside
      have := n.digits.property '.' inside
      contradiction
    split at member
    · simp [digit] at member
    · exact digit member
  have kept (cs : List Char) (zero : Bool) (noPoint : ∀ c ∈ cs, c ≠ '.') :
      cutZeroFraction zero cs = none := by
    induction cs generalizing zero with
    | nil => rfl
    | cons c cs ih =>
      have others := ih true fun d member => noPoint d (List.mem_cons_of_mem c member)
      have first : (c == '.') = false := by simpa using noPoint c (by simp)
      rw [cutZeroFraction, first, others]
      simp
  rw [dropZeroFraction, kept _ _ noPoint]

theorem ne_of_isDigit {c : Char} (digit : c.isDigit) {mark : Char} (other : mark.isDigit = false) :
    c ≠ mark := by
  rintro rfl
  rw [digit] at other
  contradiction

theorem separatorsInside_digits {cs : List Char} (digits : ∀ c ∈ cs, c.isDigit) :
    separatorsInside true cs := by
  induction cs with
  | nil => rfl
  | cons c cs ih =>
    have first : (c == '_') = false := by simpa using ne_of_isDigit (digits c (by simp)) (by decide)
    rw [separatorsInside, first, if_neg (by decide)]
    exact ih fun d member => digits d (List.mem_cons_of_mem c member)

theorem toLower_of_isDigit {c : Char} (digit : c.isDigit) : c.toLower = c := by
  have most : c.val ≤ '9'.val := by
    simp only [Char.isDigit, Bool.and_eq_true, decide_eq_true_eq] at digit
    exact digit.2
  refine dif_neg ?_
  rintro ⟨least, -⟩
  exact absurd (UInt32.le_trans least most) (by decide)

/-- A zero in front, alone or not, announces base eight. -/
theorem announcedBase_digits {c : Char} {cs : List Char} (digits : ∀ d ∈ c :: cs, d.isDigit) :
    announcedBase (c :: cs) = (if c = '0' then 8 else 10, false, c :: cs) := by
  by_cases zero : c = '0'
  · subst zero
    match cs with
    | [] => rfl
    | [mark] => rfl
    | mark :: first :: cs =>
      have digit := digits mark (by simp)
      have binary : mark ≠ 'b' := ne_of_isDigit digit (by decide)
      have octal : mark ≠ 'o' := ne_of_isDigit digit (by decide)
      have hexadecimal : mark ≠ 'x' := ne_of_isDigit digit (by decide)
      simp [announcedBase, toLower_of_isDigit digit, binary, octal, hexadecimal]
  · rw [announcedBase, if_neg zero]
    · rintro _ _ _ same
      exact zero (List.cons.inj same).1
    · rintro _ same
      exact zero (List.cons.inj same).1

/-- Digits are read in base eight if a zero is in front. -/
theorem readNat?_digits {c : Char} {cs : List Char} (digits : ∀ d ∈ c :: cs, d.isDigit) :
    readNat? (c :: cs) = readDigits? (if c = '0' then 8 else 10) (c :: cs) := by
  have separator : ∀ d ∈ c :: cs, (d != '_') = true := by
    intro d member
    simpa using ne_of_isDigit (digits d member) (by decide)
  have first : (c == '_') = false := by simpa using separator c (by simp)
  have inside : separatorsInside false (c :: cs) = true := by
    rw [separatorsInside, first, if_neg (by decide)]
    exact separatorsInside_digits fun d member => digits d (List.mem_cons_of_mem c member)
  simp only [readNat?, announcedBase_digits digits, inside, if_true,
    List.filter_eq_self.mpr separator]

/-- Behind its sign, a number is read in base eight if a zero is in front. -/
theorem readSigned?_chars (n : Whole) :
    readSigned? n.chars = (readNat? n.digits.val).bind fun magnitude =>
      if fitsInt64 (n.signed magnitude) then some (n.signed magnitude) else none := by
  obtain ⟨c, cs, split, digits⟩ := n.exists_cons
  obtain ⟨plus, minus⟩ := unsigned_of_isDigit (digits c (by simp))
  unfold chars signed
  cases n.negative with
  | true =>
    simp only [if_true, readSigned?]
    cases readNat? n.digits.val <;> rfl
  | false =>
    simp only [Bool.false_eq_true, if_false, split, readSigned?]
    split
    · exact absurd (List.cons.inj ‹_›).1 minus
    · exact absurd (List.cons.inj ‹_›).1 plus
    · cases readNat? (c :: cs) <;> rfl

theorem readInteger?_chars (n : Whole) : readInteger? (String.ofList n.chars) = n.read? := by
  obtain ⟨c, cs, split, digits⟩ := n.exists_cons
  rw [readInteger?, String.toList_ofList, dropZeroFraction_chars, readSigned?_chars, split,
    readNat?_digits digits, readDigits?_base _ digits, ← split, read?]
  by_cases zero : c = '0'
  · have eight : (if n.digits.val.all fun c => c.toNat - '0'.toNat < 8 then
          some (Nat.ofDigitChars 8 n.digits.val 0) else none).bind
        (fun magnitude => if fitsInt64 (n.signed magnitude) then some (n.signed magnitude)
          else none) = n.inEight? := by
      by_cases octal : n.IsOctal
      · rw [if_pos (isOctal_iff.mp octal), Option.bind_some, inEight?, Whole.octal]
        simp only [octal, true_and]
      · rw [if_neg (mt isOctal_iff.mpr octal), Option.bind_none, inEight?,
          if_neg (fun both => octal both.1)]
    by_cases padded : n.Padded
    · rw [if_pos zero, if_pos padded]
      exact eight
    · -- A zero alone is the same number in both bases.
      have alone : n.digits.val = ['0'] := by
        subst zero
        by_cases more : cs = []
        · rw [split, more]
        · exact absurd ⟨cs, split, more⟩ padded
      rw [if_pos zero, if_neg padded, ← inEight?_eq_inTen?_iff.mpr]
      · exact eight
      · rw [natAbs_value, Digits.value, alone]
        exact .inl (by decide)
  · have unpadded : ¬ n.Padded := by
      rintro ⟨rest, same, -⟩
      rw [split] at same
      exact zero (List.cons.inj same).1
    have ten : n.digits.val.all fun d => d.toNat - '0'.toNat < 10 :=
      List.all_eq_true.mpr fun d member => decide_eq_true (digit_lt (n.digits.property d member))
    rw [if_neg zero, if_neg unpadded, if_pos ten, Option.bind_some]
    rfl

/-! ### Numbers of a document -/

/-- The same text as a number without a point and an exponent. -/
def numeral (n : Whole) : Numeral :=
  ⟨if n.negative then .minus else .none, n.digits, none, none, .inl n.nonempty⟩

theorem chars_numeral (n : Whole) : n.numeral.chars = n.chars := by
  unfold numeral Numeral.chars chars
  cases n.negative <;> simp [Sign.chars, fractionChars]

/-- A number that is read is far below the bound of the doubles. -/
theorem isFiniteDouble_chars {x : ℤ} (read : n.read? = some x) : isFiniteDouble n.chars := by
  have square : n.digits.value < (2 ^ 64) ^ 2 := by
    have fits {y : ℤ} (fits : fitsInt64 y) : y.natAbs < 2 ^ 64 := by
      simp only [fitsInt64, Bool.and_eq_true, decide_eq_true_eq] at fits
      omega
    rw [read?] at read
    split at read
    · rw [inEight?] at read
      split at read
      · have small := fits (And.right ‹_›)
        rw [Whole.octal, natAbs_signed] at small
        exact Nat.lt_of_le_of_lt (ofDigitChars_le_sq n.digits.val (Nat.le_refl 0))
          (Nat.pow_lt_pow_left small (by decide))
      · contradiction
    · rw [inTen?] at read
      split at read
      · have small := fits ‹_›
        rw [natAbs_value] at small
        omega
      · contradiction
  have below : n.digits.value < doubleBound :=
    Nat.lt_trans square (by decide +kernel)
  have whole : n.numeral.digits = n.digits.val := by simp [Numeral.digits, numeral, decimals]
  have scale : n.numeral.readScale = 0 := by simp [Numeral.readScale, numeral, decimals]
  rw [← chars_numeral, isFiniteDouble, n.numeral.read?_chars, whole, scale]
  rw [Digits.value] at below
  simp [Decimal.fitsDouble, below]

end Whole

end Pushdown.Text
