import Pushdown.Text.Number

/-!
# What scalars stand for

A plain scalar may stand for nothing, a truth value or a number. A tag says what a scalar has to
stand for; of those of YAML itself the tags for times and for bytes are not known.
-/

namespace Pushdown.Yaml

inductive Value where
  | null
  | bool (value : Bool)
  | int (value : Int)
  /-- A number with a fraction or an exponent is the nearest double, of which the whole part is
  kept. An infinity counts as a number beyond every double, and what is no number has no whole
  part. -/
  | fraction (whole : Option Int)
  | text (value : String)
deriving DecidableEq, Inhabited

namespace Value

/-- A number beyond every double. -/
def infinity : Int := Text.powerOfTwo 1024

/-- Words that stand for something else than a text. -/
def words : List (String × Value) :=
  (["", "~", "null", "Null", "NULL"].map (·, null)) ++
    (["true", "True", "TRUE"].map (·, bool true)) ++
    (["false", "False", "FALSE"].map (·, bool false)) ++
    ([".nan", ".NaN", ".NAN"].map (·, fraction none)) ++
    ([".inf", ".Inf", ".INF", "+.inf", "+.Inf", "+.INF"].map (·, fraction (some infinity))) ++
    (["-.inf", "-.Inf", "-.INF"].map (·, fraction (some (-infinity))))

/-- A whole number of at most 64 bits; one without a sign may use all of them. -/
def integer? (cs : List Char) : Option Int :=
  (Text.readSigned? cs).or <|
    ((Text.readNat? cs).filter (· < 18446744073709551616)).map Int.ofNat

/-- A whole number whose sign follows the mark of its base. -/
def markedInteger? : List Char → Option Int
  | '0' :: mark :: sign :: digits => do
    let base ← if mark == 'b' then some 2 else if mark == 'o' then some 8 else none
    let size ← if digits.isEmpty then none else Text.readDigits? base digits
    let n : Int ← if sign == '+' then some (size : Int)
      else if sign == '-' then some (-(size : Int))
      else none
    if Text.fitsInt64 n then some n else none
  | _ => none

/-- A decimal number whose nearest double is finite. -/
def fraction? (cs : List Char) : Option Value := do
  let d ← Text.Decimal.read? cs
  if d.fitsDouble then
    let whole : Int := d.wholeDouble
    some (.fraction (some (if cs.head? == some '-' then -whole else whole)))
  else none

/-- A number, in which lines may separate digits unless a point comes first. -/
def number? (cs : List Char) : Option Value :=
  if cs.head? == some '.' then fraction? cs
  else if cs.head?.any fun c => c == '+' || c == '-' || c.isDigit then
    let digits := cs.filter (· != '_')
    ((integer? digits).map .int).or ((fraction? digits).or ((markedInteger? digits).map .int))
  else none

/-- What a plain scalar stands for. -/
def ofPlain (text : String) : Value :=
  ((words.lookup text).or (number? text.toList)).getD (.text text)

/-- What a scalar with a tag stands for. -/
def ofTagged? (tag text : String) : Option Value :=
  match tag, ofPlain text with
  | "!!null", .null => some .null
  | "!!bool", .bool b => some (.bool b)
  | "!!int", .int n => some (.int n)
  | "!!float", .fraction whole => some (.fraction whole)
  | "!!float", .int n =>
    if Text.fitsInt64 n then
      let size : Int := (Text.Decimal.mk n.natAbs 0).wholeDouble
      some (.fraction (some (if n < 0 then -size else size)))
    else none
  | tag, _ =>
    if ["!!null", "!!bool", "!!int", "!!float", "!!timestamp", "!!binary"].contains tag then none
    else some (.text text)

/-- What a scalar stands for, if that is what its tag says. -/
def ofScalar? (tag : Option String) (isPlain : Bool) (text : String) : Option Value :=
  match tag with
  | some tag => ofTagged? tag text
  | none => some (if isPlain then ofPlain text else .text text)

/-! ## Where a kind of value is expected -/

/-- A truth value, for which some words stand. -/
def toBool? : Value → Option Bool
  | bool b => some b
  | text s =>
    if ["y", "Y", "yes", "Yes", "YES", "on", "On", "ON"].contains s then some true
    else if ["n", "N", "no", "No", "NO", "off", "Off", "OFF"].contains s then some false
    else none
  | _ => none

/-- A whole number of 64 bits with a sign, of which only the whole part counts. A fraction that is
too small is the least one, and so is the first that is too large. -/
def toInt? : Value → Option Int
  | int n => if Text.fitsInt64 n then some n else none
  | fraction (some n) =>
    if n ≤ 9223372036854775808 then
      some (if Text.fitsInt64 n then n else -9223372036854775808)
    else none
  | _ => none

end Value

end Pushdown.Yaml
