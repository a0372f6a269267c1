import Pushdown.Text.Number

/-!
# Product versions

A version is three numbers, compared from the first to the last. It is found inside the free
text with which a database names its version, and it is compared with a required minimum such
as `v8` or `v3.25.0`.
-/

namespace Pushdown

structure Version where
  major : Nat
  minor : Nat := 0
  patch : Nat := 0
deriving DecidableEq, Inhabited

namespace Version

/-- Whether `v` is the version `w` or a newer one. -/
def atLeast (v w : Version) : Bool :=
  v.major > w.major || (v.major == w.major &&
    (v.minor > w.minor || (v.minor == w.minor && v.patch ≥ w.patch)))

/-- All three numbers behind the letter `v`. -/
def display (v : Version) : String := s!"v{v.major}.{v.minor}.{v.patch}"

/-- A number without a needless leading zero. -/
def readPart? (digits : List Char) : Option Nat :=
  if digits.length > 1 && digits.head? == some '0' then none
  else if digits.isEmpty then none
  else Text.readDigits? 10 digits

/-- A further number behind a point, with the rest; without digits there is none. -/
def nextPart : List Char → List Char × List Char
  | '.' :: rest =>
    let digits := rest.takeWhile Char.isDigit
    if digits.isEmpty then ([], '.' :: rest) else (digits, rest.dropWhile Char.isDigit)
  | cs => ([], cs)

/-- The first run of one to three numbers with points between them. -/
def find? (text : String) : Option Version := do
  let start := text.toList.dropWhile fun c => !c.isDigit
  let first := start.takeWhile Char.isDigit
  let major ← readPart? first
  let (second, rest) := nextPart (start.dropWhile Char.isDigit)
  if second.isEmpty then return { major }
  let minor ← readPart? second
  let (third, _) := nextPart rest
  if third.isEmpty then return { major, minor }
  let patch ← readPart? third
  return { major, minor, patch }

/-- Whether `c` may occur in a suffix behind a hyphen or a plus sign. -/
def isSuffixChar (c : Char) : Bool := c.isAlphanum || c == '-'

/-- Groups between points, none empty and all of suffix characters. In a suffix before the
build mark a group of digits has no needless leading zero. -/
def isSuffix (numbersChecked : Bool) (cs : List Char) : Bool :=
  (cs.splitOn '.').all fun group =>
    !group.isEmpty && group.all isSuffixChar &&
      !(numbersChecked && group.all Char.isDigit && group.length > 1 && group.head? == some '0')

/-- What may follow the third number: a suffix behind a hyphen, then one behind a plus sign. -/
def isTail : List Char → Bool
  | [] => true
  | '+' :: build => isSuffix false build
  | '-' :: rest =>
    isSuffix true (rest.takeWhile (· != '+')) &&
      match rest.dropWhile (· != '+') with
      | '+' :: build => isSuffix false build
      | _ => true
  | _ => false

/-- The numbers of a required minimum. Suffixes must be well formed but do not count, because
the version of a product never carries one. -/
def readMinimum? (text : String) : Option Version :=
  match text.toList with
  | 'v' :: cs => do
    let major ← readPart? (cs.takeWhile Char.isDigit)
    match cs.dropWhile Char.isDigit with
    | [] => return { major }
    | '.' :: cs =>
      let minor ← readPart? (cs.takeWhile Char.isDigit)
      match cs.dropWhile Char.isDigit with
      | [] => return { major, minor }
      | '.' :: cs =>
        let patch ← readPart? (cs.takeWhile Char.isDigit)
        if isTail (cs.dropWhile Char.isDigit) then return { major, minor, patch } else none
      | _ => none
    | _ => none
  | _ => none

end Version

end Pushdown
