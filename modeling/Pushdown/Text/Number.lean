/-!
# Numbers and truth values in text

Readers for the scalar texts of a request: whole numbers with an optional base mark and digit
separators, truth values, and decimal fractions with an exponent. Each reader either takes the
whole text or refuses it.
-/

namespace Pushdown.Text

/-- The value of a digit or letter, letters counting on from ten. -/
def digitValue? (c : Char) : Option Nat :=
  if c.isDigit then some (c.toNat - '0'.toNat)
  else if c.isAlpha then some (c.toLower.toNat - 'a'.toNat + 10)
  else none

/-- The number written by `digits` in the given base, or nothing if one is not a digit of it. -/
def readDigits? (base : Nat) (digits : List Char) : Option Nat :=
  digits.foldlM (fun n c => (digitValue? c).bind fun d =>
    if d < base then some (n * base + d) else none) 0

/-- Every separator stands directly between two digits; `afterDigit` tells whether a digit,
or a base mark, comes just before. -/
def separatorsInside : (afterDigit : Bool) → List Char → Bool
  | afterDigit, [] => afterDigit
  | afterDigit, c :: rest =>
    if c == '_' then afterDigit && separatorsInside false rest else separatorsInside true rest

/-- The base that a text announces, with what is left to read. A leading zero alone announces
base eight and stays in front, where it is a digit like any other. -/
def announcedBase : List Char → Nat × Bool × List Char
  | '0' :: mark :: first :: rest =>
    if mark.toLower == 'b' then (2, true, first :: rest)
    else if mark.toLower == 'o' then (8, true, first :: rest)
    else if mark.toLower == 'x' then (16, true, first :: rest)
    else (8, false, '0' :: mark :: first :: rest)
  | '0' :: rest => (8, false, '0' :: rest)
  | cs => (10, false, cs)

/-- A number without a sign. -/
def readNat? (cs : List Char) : Option Nat :=
  let (base, marked, digits) := announcedBase cs
  if separatorsInside marked digits then readDigits? base (digits.filter (· != '_')) else none

/-- Whether a number fits into 64 bits with a sign. -/
def fitsInt64 (n : Int) : Bool := -9223372036854775808 ≤ n && n ≤ 9223372036854775807

/-- A number with an optional sign that fits into 64 bits. -/
def readSigned? (cs : List Char) : Option Int := do
  let n : Int ← match cs with
    | '-' :: rest => (readNat? rest).map fun n => -(n : Int)
    | '+' :: rest => (readNat? rest).map Int.ofNat
    | rest => (readNat? rest).map Int.ofNat
  if fitsInt64 n then some n else none

/-- Cut the reversed text at the point before a run of zeros, if only zeros and points follow. -/
def cutZeroFraction (seenZero : Bool) : List Char → Option (List Char)
  | [] => none
  | c :: rest =>
    if c == '.' then if seenZero then some rest else cutZeroFraction seenZero rest
    else if c == '0' then cutZeroFraction true rest
    else none

/-- Drop a fraction that is zero: `8.00` is `8`. -/
def dropZeroFraction (cs : List Char) : List Char :=
  match cutZeroFraction false cs.reverse with
  | some front => front.reverse
  | none => cs

/-- A whole number as requests and settings write it. -/
def readInteger? (s : String) : Option Int := readSigned? (dropZeroFraction s.toList)

/-- A truth value as requests and settings write it. -/
def readBool? (s : String) : Option Bool :=
  if ["1", "t", "T", "TRUE", "true", "True"].contains s then some true
  else if ["0", "f", "F", "FALSE", "false", "False"].contains s then some false
  else none

/-- The number `digits * 10 ^ exponent`, apart from its sign. -/
structure Decimal where
  digits : Nat
  exponent : Int

/-- Drop a leading sign. -/
def dropSign : List Char → List Char
  | '+' :: rest => rest
  | '-' :: rest => rest
  | cs => cs

/-- The exponent after the mark. Digits behind the fifth do not count any more. -/
def readExponent? (cs : List Char) : Option Int :=
  let digits := dropSign cs
  if digits.isEmpty || !digits.all Char.isDigit then none
  else
    let size := digits.foldl (fun n c => if n < 10000 then n * 10 + (c.toNat - '0'.toNat) else n) 0
    some (if cs.head? == some '-' then -(size : Int) else size)

/-- A decimal number with optional sign, fraction and exponent. -/
def Decimal.read? (cs : List Char) : Option Decimal := do
  let body := dropSign cs
  let whole := body.takeWhile Char.isDigit
  let afterWhole := body.dropWhile Char.isDigit
  let fraction := match afterWhole with
    | '.' :: rest => rest.takeWhile Char.isDigit
    | _ => []
  let tail := match afterWhole with
    | '.' :: rest => rest.dropWhile Char.isDigit
    | rest => rest
  if whole.isEmpty && fraction.isEmpty then none
  else
    let digits ← readDigits? 10 (whole ++ fraction)
    let exponent ← match tail with
      | [] => some 0
      | mark :: rest => if mark.toLower == 'e' then readExponent? rest else none
    some ⟨digits, exponent - fraction.length⟩

def powerOfTwo (n : Nat) : Nat := Nat.pow 2 n

/-- Numbers from here on have no finite double: half a step above the largest one. -/
def doubleBound : Nat := powerOfTwo 1024 - powerOfTwo 970

/-- Whether the nearest double is finite. -/
def Decimal.fitsDouble (d : Decimal) : Bool :=
  if d.digits == 0 then true
  else if d.exponent < 0 then d.digits < doubleBound * Nat.pow 10 d.exponent.natAbs
  else d.exponent.natAbs ≤ 400 && d.digits * Nat.pow 10 d.exponent.natAbs < doubleBound

/-- A quotient rounded to the nearest whole number, a half going to the even one. -/
def roundedQuotient (num den : Nat) : Nat :=
  let q := num / den
  let twice := 2 * (num % den)
  if twice > den || (twice == den && q % 2 == 1) then q + 1 else q

/-- How many binary digits a double has. -/
def doubleDigits : Nat := 53

/-- The whole part of the nearest double, which has to be finite. -/
def Decimal.wholeDouble (d : Decimal) : Nat :=
  let num := d.digits * Nat.pow 10 d.exponent.toNat
  let den := Nat.pow 10 (-d.exponent).toNat
  let digits := if num < den then 0 else Nat.log2 (num / den) + 1
  if digits ≤ doubleDigits then
    let unit := powerOfTwo (doubleDigits - digits)
    roundedQuotient (num * unit) den / unit
  else
    let unit := powerOfTwo (digits - doubleDigits)
    roundedQuotient num (den * unit) * unit

/-- Whether the text is a decimal number whose nearest double is finite. -/
def isFiniteDouble (cs : List Char) : Bool :=
  match Decimal.read? cs with
  | some d => d.fitsDouble
  | none => false

/-- Whether the text names an infinity or the value that is no number. -/
def namesNonFinite (cs : List Char) : Bool :=
  let small := (dropSign cs).map Char.toLower
  small == "inf".toList || small == "infinity".toList || cs.map Char.toLower == "nan".toList

end Pushdown.Text
