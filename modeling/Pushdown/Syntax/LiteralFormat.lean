import Pushdown.Text.Number

/-!
# Formats of constants

Numbers, dates, timestamps and intervals are written into a statement as they were given, so
their text has to follow a fixed format. Only ASCII digits are digits.
-/

namespace Pushdown.LiteralFormat

open Text (dropSign)

/-- Digits, with an optional sign and an optional fraction. -/
def isExactNumeric (cs : List Char) : Bool :=
  let body := dropSign cs
  !(body.takeWhile Char.isDigit).isEmpty &&
    match body.dropWhile Char.isDigit with
    | [] => true
    | '.' :: fraction => !fraction.isEmpty && fraction.all Char.isDigit
    | _ => false

/-- The text has the shape of the template, in which `0` stands for any digit. -/
def fits : (template text : List Char) → Bool
  | [], [] => true
  | '0' :: template, c :: text => c.isDigit && fits template text
  | t :: template, c :: text => t == c && fits template text
  | _, _ => false

def isDate (cs : List Char) : Bool := fits "0000-00-00".toList cs

/-- The fraction of a second, of one to nine digits, or nothing at all. -/
def isSecondFraction : List Char → Bool
  | [] => true
  | '.' :: digits => 1 ≤ digits.length && digits.length ≤ 9 && digits.all Char.isDigit
  | _ => false

def isTimestamp (cs : List Char) : Bool :=
  fits "0000-00-00 00:00:00".toList (cs.take 19) && isSecondFraction (cs.drop 19)

/-- A digit, with an optional sign before it, then digits, blanks and separators. -/
def isInterval (cs : List Char) : Bool :=
  match dropSign cs with
  | [] => false
  | first :: rest => first.isDigit && rest.all fun c => c.isDigit || " :.-".toList.contains c

end Pushdown.LiteralFormat
