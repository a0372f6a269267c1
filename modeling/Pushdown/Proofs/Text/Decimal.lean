import Mathlib.Algebra.Order.Field.Power
import Mathlib.Algebra.Order.Field.Rat
import Mathlib.Tactic.NormNum
import Mathlib.Tactic.Positivity
import Pushdown.Proofs.Sql.Numeral

/-!
# Decimal numbers and their values

A number is written as digits with at most one point among them, behind an optional sign and in
front of an optional exponent. Reading such a text keeps its value exactly, as long as the exponent
has at most five digits, and every text that can be read is written in this way. Whether a double
can hold the number is then a question about one fraction.
-/

namespace Pushdown.Text

/-! ## How numbers are written -/

/-- Digits and nothing else. -/
abbrev Digits := { cs : List Char // ∀ c ∈ cs, c.isDigit }

/-- The whole number that digits stand for. -/
def Digits.value (ds : Digits) : ℕ := Nat.ofDigitChars 10 ds.val 0

inductive Sign where
  | none
  | plus
  | minus

def Sign.chars : Sign → List Char
  | none => []
  | plus => ['+']
  | minus => ['-']

/-- The number with this sign in front. -/
def Sign.apply {α : Type} [Neg α] : Sign → α → α
  | none, x | plus, x => x
  | minus, x => -x

structure Exponent where
  mark : Char
  sign : Sign
  digits : Digits
  isMark : mark = 'e' ∨ mark = 'E'
  nonempty : digits.val ≠ []

def Exponent.chars (x : Exponent) : List Char := x.mark :: (x.sign.chars ++ x.digits.val)

def Exponent.value (x : Exponent) : ℤ := x.sign.apply (x.digits.value : ℤ)

/-- The digits in front of an optional point and behind it, at least one in all. -/
structure Numeral where
  sign : Sign
  whole : Digits
  fraction : Option Digits
  exponent : Option Exponent
  nonempty : whole.val ≠ [] ∨ ∃ ds, fraction = some ds ∧ ds.val ≠ []

/-- The point and the digits behind it. -/
def fractionChars : Option Digits → List Char
  | none => []
  | some ds => '.' :: ds.val

/-- The digits behind the point. -/
def decimals : Option Digits → List Char
  | none => []
  | some ds => ds.val

namespace Numeral

def chars (n : Numeral) : List Char :=
  n.sign.chars ++
    (n.whole.val ++ fractionChars n.fraction ++ (n.exponent.map Exponent.chars).getD [])

/-- The digits on both sides of the point. -/
def digits (n : Numeral) : List Char := n.whole.val ++ decimals n.fraction

def scale (n : Numeral) : ℤ := (n.exponent.map Exponent.value).getD 0 - (decimals n.fraction).length

/-- The exact value. -/
def value (n : Numeral) : ℚ := n.sign.apply ((Nat.ofDigitChars 10 n.digits 0 : ℚ) * 10 ^ n.scale)

/-- The exponent has at most so many digits. -/
def ExponentWithin (n : Numeral) (count : ℕ) : Prop :=
  ∀ x ∈ n.exponent, x.digits.val.length ≤ count

end Numeral

/-! ## Digits are read as their number -/

theorem digitValue?_of_isDigit {c : Char} (digit : c.isDigit) :
    digitValue? c = some (c.toNat - '0'.toNat) := by
  simp [digitValue?, digit]

theorem digit_lt {c : Char} (digit : c.isDigit) : c.toNat - '0'.toNat < 10 := by
  have value : c.toNat = c.val.toNat := rfl
  simp only [Char.isDigit, ge_iff_le, UInt32.le_iff_toNat_le, Bool.and_eq_true,
    decide_eq_true_eq] at digit
  have nine : '9'.val.toNat = 57 := rfl
  have zero : '0'.toNat = 48 := rfl
  omega

/-- Digits are read as their number in a base, as long as all of them belong to it. -/
theorem readDigits?_base (base : ℕ) {cs : List Char} (digits : ∀ c ∈ cs, c.isDigit) :
    readDigits? base cs =
      if cs.all fun c => c.toNat - '0'.toNat < base then some (Nat.ofDigitChars base cs 0)
      else none := by
  have from_ (n : ℕ) : cs.foldlM (fun n c => (digitValue? c).bind fun d =>
      if d < base then some (n * base + d) else none) n =
      if cs.all fun c => c.toNat - '0'.toNat < base then some (Nat.ofDigitChars base cs n)
      else none := by
    induction cs generalizing n with
    | nil => simp [Nat.ofDigitChars]
    | cons c cs ih =>
      have more := ih fun d member => digits d (List.mem_cons_of_mem c member)
      rw [List.foldlM_cons, digitValue?_of_isDigit (digits c (by simp)), Option.bind_some]
      by_cases small : c.toNat - '0'.toNat < base
      · rw [if_pos small, Option.bind_eq_bind, Option.bind_some, more, Nat.mul_comm n base,
          Nat.ofDigitChars_cons]
        simp only [List.all_cons, small, decide_true, Bool.true_and]
      · have unfit : ¬ (c :: cs).all fun c => c.toNat - '0'.toNat < base := fun all =>
          small (of_decide_eq_true (List.all_eq_true.mp all c List.mem_cons_self))
        rw [if_neg small, if_neg unfit]
        rfl
  exact from_ 0

theorem readDigits?_eq {cs : List Char} (digits : ∀ c ∈ cs, c.isDigit) :
    readDigits? 10 cs = some (Nat.ofDigitChars 10 cs 0) := by
  have decimal : cs.all fun c => c.toNat - '0'.toNat < 10 :=
    List.all_eq_true.mpr fun c member => decide_eq_true (digit_lt (digits c member))
  rw [readDigits?_base 10 digits, if_pos decimal]

/-- The digits of an exponent, where those behind the fifth do not count. -/
def cutValue (n : ℕ) (cs : List Char) : ℕ :=
  cs.foldl (fun n c => if n < 10000 then n * 10 + (c.toNat - '0'.toNat) else n) n

theorem cutValue_eq {cs : List Char} (digits : ∀ c ∈ cs, c.isDigit) {n k : ℕ} (small : n < 10 ^ k)
    (short : k + cs.length ≤ 5) : cutValue n cs = Nat.ofDigitChars 10 cs n := by
  induction cs generalizing n k with
  | nil => rfl
  | cons c cs ih =>
    rw [List.length_cons] at short
    have digit := digit_lt (digits c (by simp))
    have few : 10 ^ k ≤ 10 ^ 4 := Nat.pow_le_pow_right (by omega) (by omega)
    have next : n * 10 + (c.toNat - '0'.toNat) < 10 ^ (k + 1) := by
      rw [Nat.pow_succ]
      omega
    have more := ih (fun d member => digits d (List.mem_cons_of_mem c member)) next (by omega)
    have kept : n < 10000 := by omega
    rw [cutValue, List.foldl_cons, if_pos kept]
    rw [cutValue, Nat.mul_comm n 10] at more
    rw [Nat.mul_comm n 10, more]
    rfl

/-! ## Signs and exponents -/

theorem dropSign_of_head {cs : List Char} (unsigned : ∀ c ∈ cs.head?, c ≠ '+' ∧ c ≠ '-') :
    dropSign cs = cs := by
  cases cs with
  | nil => rfl
  | cons c cs =>
    obtain ⟨plus, minus⟩ := unsigned c rfl
    unfold dropSign
    split <;> simp_all

theorem dropSign_chars (sign : Sign) {cs : List Char}
    (unsigned : ∀ c ∈ cs.head?, c ≠ '+' ∧ c ≠ '-') : dropSign (sign.chars ++ cs) = cs := by
  cases sign with
  | none => exact dropSign_of_head unsigned
  | plus | minus => rfl

theorem exists_sign (cs : List Char) : ∃ sign : Sign, cs = sign.chars ++ dropSign cs := by
  unfold dropSign
  split
  · exact ⟨.plus, rfl⟩
  · exact ⟨.minus, rfl⟩
  · exact ⟨.none, rfl⟩

theorem unsigned_of_isDigit {c : Char} (digit : c.isDigit) : c ≠ '+' ∧ c ≠ '-' := by
  constructor <;> rintro rfl <;> contradiction

theorem readExponent?_eq (sign : Sign) (ds : Digits) (nonempty : ds.val ≠ []) :
    readExponent? (sign.chars ++ ds.val) = some (sign.apply (cutValue 0 ds.val : ℤ)) := by
  obtain ⟨cs, digits⟩ := ds
  obtain ⟨c, rest, rfl⟩ := List.exists_cons_of_ne_nil nonempty
  have unsigned := unsigned_of_isDigit (digits c (by simp))
  have bare : dropSign (sign.chars ++ c :: rest) = c :: rest := by
    apply dropSign_chars
    simpa using unsigned
  have all : (c :: rest).all Char.isDigit = true := by simpa using digits
  simp only [readExponent?, bare, all, List.isEmpty_cons, Bool.not_true, Bool.or_self,
    Bool.false_eq_true, if_false]
  cases sign with
  | none => simp [Sign.chars, Sign.apply, unsigned, cutValue]
  | plus | minus => simp [Sign.chars, Sign.apply, cutValue]

/-- The exponent behind the digits of a number, or nothing. -/
def readTail? : List Char → Option ℤ
  | [] => some 0
  | mark :: rest => if mark.toLower == 'e' then readExponent? rest else none

theorem readTail?_chars (x : Exponent) :
    readTail? x.chars = some (x.sign.apply (cutValue 0 x.digits.val : ℤ)) := by
  have mark : (x.mark.toLower == 'e') = true := by
    rcases x.isMark with same | same <;> rw [same] <;> rfl
  rw [Exponent.chars, readTail?, if_pos mark]
  exact readExponent?_eq x.sign x.digits x.nonempty

/-- What can be read as an exponent has a sign and digits. -/
theorem exists_exponent {mark : Char} {rest : List Char} {e : ℤ}
    (read : readTail? (mark :: rest) = some e) :
    ∃ x : Exponent, mark :: rest = x.chars := by
  rw [readTail?] at read
  split at read
  · rename_i letter
    have digits := IsNumeral.digits_of_readExponent? read
    obtain ⟨sign, signed⟩ := exists_sign rest
    have nonempty : dropSign rest ≠ [] := by
      intro none
      simp [readExponent?, none] at read
    exact ⟨⟨mark, sign, ⟨dropSign rest, List.all_eq_true.mp digits⟩,
      IsNumeral.eq_of_toLower (eq_of_beq letter), nonempty⟩, by rw [Exponent.chars, ← signed]⟩
  · contradiction

/-! ## Whole numbers, fractions and exponents together -/

/-- A run of digits ends in front of what is no digit. -/
theorem span_digits {cs rest : List Char} (digits : ∀ c ∈ cs, c.isDigit)
    (stops : ∀ c ∈ rest.head?, c.isDigit = false) :
    (cs ++ rest).takeWhile Char.isDigit = cs ∧ (cs ++ rest).dropWhile Char.isDigit = rest := by
  have stopped : rest.takeWhile Char.isDigit = [] ∧ rest.dropWhile Char.isDigit = rest := by
    cases rest with
    | nil => exact ⟨rfl, rfl⟩
    | cons c rest => simp [stops c rfl]
  rw [List.takeWhile_append_of_pos digits, List.dropWhile_append_of_pos digits, stopped.1,
    stopped.2, List.append_nil]
  exact ⟨rfl, rfl⟩

/-- The digits behind a point, and what follows them. -/
def splitPoint : List Char → List Char × List Char
  | '.' :: rest => (rest.takeWhile Char.isDigit, rest.dropWhile Char.isDigit)
  | rest => ([], rest)

/-- A number is read part by part: up to the point, up to what is no digit, and up to the end. -/
theorem read?_eq {cs whole after fraction tail : List Char}
    (front : (dropSign cs).takeWhile Char.isDigit = whole)
    (behind : (dropSign cs).dropWhile Char.isDigit = after)
    (point : splitPoint after = (fraction, tail)) (nonempty : ¬ (whole = [] ∧ fraction = [])) :
    Decimal.read? cs = (readDigits? 10 (whole ++ fraction)).bind fun digits =>
      (readTail? tail).map fun e => ⟨digits, e - fraction.length⟩ := by
  have digital : (whole.isEmpty && fraction.isEmpty) = false := by
    rw [Bool.eq_false_iff]
    simpa using nonempty
  unfold splitPoint at point
  split at point
  all_goals
    obtain ⟨rfl, rfl⟩ := Prod.mk.inj point
    simp only [Decimal.read?, front, behind, digital, Bool.false_eq_true, if_false]
  · cases List.dropWhile Char.isDigit _ with
    | nil => simp [readTail?, Option.map_eq_bind]
    | cons mark rest =>
      congr 1
      funext digits
      by_cases letter : (mark.toLower == 'e') = true
      · simp [readTail?, letter, Option.map_eq_bind]
      · simp [readTail?, letter]
  · cases after with
    | nil => simp [readTail?, Option.map_eq_bind]
    | cons mark rest =>
      congr 1
      funext digits
      by_cases letter : (mark.toLower == 'e') = true
      · simp [readTail?, letter, Option.map_eq_bind]
      · simp [readTail?, letter]

theorem read?_parts {cs tail : List Char} (whole : Digits) {fraction : Option Digits}
    (parts : dropSign cs = whole.val ++ fractionChars fraction ++ tail)
    (nonempty : whole.val ≠ [] ∨ ∃ ds, fraction = some ds ∧ ds.val ≠ [])
    (stops : ∀ c ∈ tail.head?, c.isDigit = false ∧ c ≠ '.') :
    Decimal.read? cs = (readTail? tail).map fun e =>
      ⟨Nat.ofDigitChars 10 (whole.val ++ decimals fraction) 0, e - (decimals fraction).length⟩ := by
  have stop (c : Char) (first : c ∈ tail.head?) : c.isDigit = false := (stops c first).1
  have digits (c : Char) (member : c ∈ whole.val ++ decimals fraction) : c.isDigit := by
    rcases List.mem_append.mp member with front | behind
    · exact whole.property c front
    · cases fraction with
      | none => contradiction
      | some ds => exact ds.property c behind
  have digital : ¬ (whole.val = [] ∧ decimals fraction = []) := by
    rintro ⟨front, behind⟩
    rcases nonempty with some_whole | ⟨ds, rfl, some_fraction⟩
    · exact some_whole front
    · exact some_fraction behind
  have pointed : splitPoint (fractionChars fraction ++ tail) = (decimals fraction, tail) := by
    cases fraction with
    | some ds =>
      obtain ⟨front, behind⟩ := span_digits ds.property stop
      rw [fractionChars, List.cons_append, splitPoint, front, behind]
      rfl
    | none =>
      rw [fractionChars, List.nil_append, splitPoint]
      · rfl
      · rintro rest rfl
        exact (stops '.' rfl).2 rfl
  have ends : ∀ c ∈ (fractionChars fraction ++ tail).head?, c.isDigit = false := by
    cases fraction with
    | none => exact stop
    | some ds =>
      rintro c ⟨⟩
      rfl
  obtain ⟨front, behind⟩ := span_digits whole.property ends
  rw [List.append_assoc] at parts
  rw [← parts] at front behind
  rw [read?_eq front behind pointed digital, readDigits?_eq digits, Option.bind_some]

namespace Numeral

theorem stops (n : Numeral) : ∀ c ∈ ((n.exponent.map Exponent.chars).getD []).head?,
    c.isDigit = false ∧ c ≠ '.' := by
  intro c first
  cases exponent : n.exponent with
  | none => simp [exponent] at first
  | some x =>
    obtain rfl : x.mark = c := by simpa [exponent, Exponent.chars] using first
    rcases x.isMark with same | same <;> rw [same] <;> decide

theorem dropSign_chars (n : Numeral) : dropSign n.chars =
    n.whole.val ++ fractionChars n.fraction ++ (n.exponent.map Exponent.chars).getD [] := by
  apply Text.dropSign_chars
  intro c first
  obtain ⟨sign, ⟨whole, digits⟩, fraction, exponent, nonempty⟩ := n
  cases whole with
  | cons d whole =>
    obtain rfl : d = c := by simpa using first
    exact unsigned_of_isDigit (digits d (by simp))
  | nil =>
    obtain ⟨ds, rfl, -⟩ : ∃ ds, fraction = some ds ∧ ds.val ≠ [] := by simpa using nonempty
    obtain rfl : '.' = c := by simpa [fractionChars] using first
    decide

/-- The scale as it is read: of a long exponent only the first digits count. -/
def readScale (n : Numeral) : ℤ :=
  (n.exponent.map fun x => x.sign.apply (cutValue 0 x.digits.val : ℤ)).getD 0 -
    (decimals n.fraction).length

theorem readScale_eq {n : Numeral} (short : n.ExponentWithin 5) : n.readScale = n.scale := by
  cases exponent : n.exponent with
  | none => simp [readScale, scale, exponent]
  | some x =>
    have few : 0 + x.digits.val.length ≤ 5 := by
      rw [Nat.zero_add]
      exact short x exponent
    have same := cutValue_eq (n := 0) (k := 0) x.digits.property (by decide) few
    simp [readScale, scale, exponent, Exponent.value, Digits.value, same]

theorem read?_chars (n : Numeral) :
    Decimal.read? n.chars = some ⟨Nat.ofDigitChars 10 n.digits 0, n.readScale⟩ := by
  rw [read?_parts n.whole n.dropSign_chars n.nonempty n.stops]
  cases exponent : n.exponent with
  | none => simp [readTail?, readScale, digits, exponent]
  | some x => simp [readTail?_chars, readScale, digits, exponent]

/-- Every text that can be read is written as a number. -/
theorem exists_of_read {cs : List Char} {d : Decimal} (read : Decimal.read? cs = some d) :
    ∃ n : Numeral, cs = n.chars := by
  obtain ⟨whole, point, tail, chars, wholeDigits, isFraction, isExponent, nonempty⟩ :=
    IsNumeral.parts_of_read read
  obtain ⟨sign, signed⟩ := exists_sign cs
  let whole : Digits := ⟨whole, List.all_eq_true.mp wholeDigits⟩
  obtain ⟨fraction, rfl⟩ : ∃ fraction, point = fractionChars fraction := by
    rcases isFraction with rfl | ⟨digits, rfl, all⟩
    · exact ⟨none, rfl⟩
    · exact ⟨some ⟨digits, List.all_eq_true.mp all⟩, rfl⟩
  have nonempty : whole.val ≠ [] ∨ ∃ ds, fraction = some ds ∧ ds.val ≠ [] := by
    apply nonempty.imp_right
    rintro ⟨c, rest, same⟩
    cases fraction with
    | none => contradiction
    | some ds => exact ⟨ds, rfl, by rw [List.tail_eq_of_cons_eq same]; simp⟩
  have stops : ∀ c ∈ tail.head?, c.isDigit = false ∧ c ≠ '.' := by
    intro c first
    rcases isExponent with rfl | ⟨mark, rest, rfl, letter, -⟩
    · contradiction
    · obtain rfl : mark = c := by simpa using first
      rcases letter with rfl | rfl <;> decide
  rw [read?_parts whole chars nonempty stops] at read
  obtain ⟨e, readTail, -⟩ := Option.map_eq_some_iff.mp read
  cases tail with
  | nil =>
    refine ⟨⟨sign, whole, fraction, none, nonempty⟩, ?_⟩
    rw [signed, chars]
    rfl
  | cons mark rest =>
    obtain ⟨x, same⟩ := exists_exponent readTail
    refine ⟨⟨sign, whole, fraction, some x, nonempty⟩, ?_⟩
    rw [signed, chars, same]
    rfl

end Numeral

/-! ## What a double can hold -/

theorem cast_two_pow_sub {m n : ℕ} (le : m ≤ n) : ((2 ^ n - 2 ^ m : ℕ) : ℚ) = 2 ^ n - 2 ^ m := by
  rw [Nat.cast_sub (Nat.pow_le_pow_right (by omega) le), Nat.cast_pow, Nat.cast_pow]
  rfl

theorem powerOfTwo_eq (n : ℕ) : powerOfTwo n = 2 ^ n := rfl

theorem doubleBound_eq : (doubleBound : ℚ) = 2 ^ 1024 - 2 ^ 970 := by
  rw [doubleBound, powerOfTwo_eq, powerOfTwo_eq, cast_two_pow_sub (by omega)]

theorem two_pow_le {n k : ℕ} (le : n ≤ 3 * k) : 2 ^ n ≤ 10 ^ k := by
  calc 2 ^ n ≤ 2 ^ (3 * k) := Nat.pow_le_pow_right (by omega) le
    _ = 8 ^ k := Nat.pow_mul 2 3 k
    _ ≤ 10 ^ k := Nat.pow_le_pow_left (by omega) k

theorem doubleBound_pos : 0 < doubleBound := by
  rw [doubleBound, powerOfTwo_eq, powerOfTwo_eq, Nat.sub_pos_iff_lt]
  apply Nat.pow_lt_pow_right <;> omega

theorem doubleBound_le {k : ℕ} (large : 400 ≤ k) : doubleBound ≤ 10 ^ k := by
  rw [doubleBound, powerOfTwo_eq, powerOfTwo_eq]
  apply Nat.le_trans (Nat.sub_le _ _)
  apply two_pow_le
  omega

/-- Whether a number is small enough is read off its digits and its exponent. -/
theorem fitsDouble_iff (d : Decimal) :
    d.fitsDouble ↔ (d.digits : ℚ) * 10 ^ d.exponent < doubleBound := by
  obtain ⟨digits, exponent⟩ := d
  have positive : (0 : ℚ) < doubleBound := by exact_mod_cast doubleBound_pos
  by_cases none : digits = 0
  · subst none
    have fits : (Decimal.mk 0 exponent).fitsDouble = true := rfl
    simp only [fits, Nat.cast_zero, zero_mul, positive]
  cases exponent with
  | negSucc k =>
    have power : (0 : ℚ) < 10 ^ (k + 1) := by positivity
    have cast : (doubleBound * 10 ^ (k + 1) : ℚ) = ((doubleBound * 10 ^ (k + 1) : ℕ) : ℚ) := by
      push_cast
      rfl
    rw [zpow_negSucc, ← div_eq_mul_inv, div_lt_iff₀ power, cast, Nat.cast_lt]
    have negative : Int.negSucc k < 0 := Int.negSucc_lt_zero k
    simp only [Decimal.fitsDouble, beq_iff_eq, none, negative, if_false, if_true,
      Int.natAbs_negSucc, Nat.pow_eq, decide_eq_true_eq]
  | ofNat k =>
    have cast : (digits * 10 ^ k : ℚ) = ((digits * 10 ^ k : ℕ) : ℚ) := by
      push_cast
      rfl
    rw [Int.ofNat_eq_natCast, zpow_natCast, cast, Nat.cast_lt]
    have within (small : digits * 10 ^ k < doubleBound) : k ≤ 400 := by
      by_contra large
      have most := doubleBound_le (k := k) (by omega)
      have least : 1 * 10 ^ k ≤ digits * 10 ^ k := Nat.mul_le_mul_right _ (by omega)
      omega
    have unsigned : ¬ (k : ℤ) < 0 := by omega
    simp only [Decimal.fitsDouble, beq_iff_eq, none, unsigned, if_false,
      Int.natAbs_natCast, Nat.pow_eq, Bool.and_eq_true, decide_eq_true_eq]
    constructor
    · exact And.right
    · intro small
      exact ⟨within small, small⟩

namespace Numeral

theorem abs_value (n : Numeral) :
    |n.value| = (Nat.ofDigitChars 10 n.digits 0 : ℚ) * 10 ^ n.scale := by
  have positive : (0 : ℚ) ≤ Nat.ofDigitChars 10 n.digits 0 * 10 ^ n.scale := by positivity
  have bare : |n.value| = |(Nat.ofDigitChars 10 n.digits 0 : ℚ) * 10 ^ n.scale| := by
    unfold value
    cases n.sign with
    | none | plus => rfl
    | minus => exact abs_neg _
  rw [bare, abs_of_nonneg positive]

/-- A number has a finite double near it if it lies below half a step above the largest one. -/
theorem isFiniteDouble_iff {n : Numeral} (short : n.ExponentWithin 5) :
    isFiniteDouble n.chars ↔ |n.value| < 2 ^ 1024 - 2 ^ 970 := by
  rw [isFiniteDouble, n.read?_chars]
  dsimp only
  rw [fitsDouble_iff, readScale_eq short, ← abs_value, doubleBound_eq]

theorem exists_of_isFiniteDouble {cs : List Char} (finite : isFiniteDouble cs) :
    ∃ n : Numeral, cs = n.chars := by
  unfold isFiniteDouble at finite
  split at finite
  · exact exists_of_read ‹_›
  · contradiction

end Numeral

end Pushdown.Text
