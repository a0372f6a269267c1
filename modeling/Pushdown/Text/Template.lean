import Pushdown.Text.Bytes
import Pushdown.Text.Quoted

/-!
# Templates with one text

A template is copied, except for its directives. A directive starts with a percent sign and says
how the text is put in: flags, a width, a precision and a verb. A number between brackets names
the text that is meant, of which there is only the first. What is wrong with a directive shows in
its place, and a text that no directive takes shows at the end.
-/

namespace Pushdown.Text

/-! ## Layout -/

/-- How a directive lays out the text. -/
structure Layout where
  /-- Write the second of the forms that a verb has. -/
  alternate : Bool := false
  /-- Fill up with zeros on the left. -/
  zeros : Bool := false
  plus : Bool := false
  /-- Fill up on the right. -/
  minus : Bool := false
  space : Bool := false
  width : Nat := 0
  precision : Option Nat := none

namespace Layout

/-- Fill up to the width. -/
def fill (l : Layout) (cs : List Char) : List Char :=
  let missing := l.width - cs.length
  if l.minus then cs ++ List.replicate missing ' '
  else List.replicate missing (if l.zeros then '0' else ' ') ++ cs

/-- Keep as many elements as the precision says. -/
def cut {α : Type} (l : Layout) (list : List α) : List α :=
  match l.precision with
  | some n => list.take n
  | none => list

def plain (l : Layout) (cs : List Char) : List Char := l.fill (l.cut cs)

/-- The mark of a quotation without escapes. -/
def backquote : Char := Char.ofNat 0x60

/-- Whether a character can stand in a quotation without escapes. -/
def needsNoEscape (c : Char) : Bool :=
  (0x20 ≤ c.toNat || c == '\t') && c != backquote && c.toNat != 0x7F && c.toNat != 0xFEFF

/-- Between quotes: without escapes if that is asked for and possible. -/
def quotation (l : Layout) (cs : List Char) : List Char :=
  let cs := l.cut cs
  l.fill (
    if l.alternate && cs.all needsNoEscape then backquote :: cs ++ [backquote]
    else quotedBy (fun c => (!l.plus || c.toNat < 0x80) && isPrintable c) cs)

/-- The bytes in hexadecimal digits, which `digit` writes; `mark` announces the base. -/
def hexadecimal (l : Layout) (digit : Char → Char) (mark : List Char) (cs : List Char) :
    List Char :=
  let announced (digits : List Char) : List Char := if l.alternate then mark ++ digits else digits
  match (l.cut (bytes cs)).map fun byte => (hexDigits 2 byte.toNat).map digit with
  | [] => l.fill []
  | parts =>
    if l.space then l.fill (((parts.map announced).intersperse [' ']).flatten)
    else l.fill (announced parts.flatten)

end Layout

/-- A part of a filled template. -/
inductive TemplatePart where
  | copied (chars : List Char)
  /-- The text as it is. -/
  | whole
deriving DecidableEq, Inhabited

namespace TemplatePart

/-- What became of the text, which may be nothing. -/
def ofText (value written : List Char) : TemplatePart :=
  if written = value then whole else copied written

def ofString (s : String) : TemplatePart := copied s.toList

end TemplatePart

/-- The text between quotes if that is asked for, and as it is otherwise. -/
def Layout.value (l : Layout) (value : List Char) : List Char :=
  if l.alternate then { l with alternate := false, plus := false }.quotation value
  else l.plain value

/-- What a verb makes of the text. A verb that is not for texts shows together with it. -/
def Layout.write (l : Layout) (verb : Char) (value : List Char) : List TemplatePart :=
  let refused (written : List Char) : List TemplatePart :=
    [.ofString ("%!" ++ verb.toString ++ "(string="), .ofText value written, .ofString ")"]
  match verb with
  | 's' => [.ofText value (l.plain value)]
  | 'v' => [.ofText value (l.value value)]
  | 'q' => [.ofText value (l.quotation value)]
  | 'x' => [.ofText value (l.hexadecimal id ['0', 'x'] value)]
  | 'X' => [.ofText value (l.hexadecimal Char.toUpper ['0', 'X'] value)]
  | 'T' => [.copied (l.plain "string".toList)]
  | 'w' => refused (l.value value)
  | _ => refused (l.plain value)

/-! ## Directives -/

/-- A directive that is being read. -/
structure Directive where
  rest : List Char
  /-- Whether a directive has taken the text. -/
  taken : Bool
  /-- Whether a directive has named the text. -/
  named : Bool
  layout : Layout := {}
  /-- Whether every text that was named is there. -/
  good : Bool := true
  /-- Whether the text has just been named. -/
  afterName : Bool := false
  /-- What was wrong so far. -/
  complaints : String := ""

namespace Directive

/-- A number at the start of a template, on top of the digits that make up `n`. No number has
many more than six digits: if one has, nothing that follows is read. -/
def numberFrom (n : Nat) (seen : Bool) : List Char → Option Nat × List Char
  | [] => (if seen then some n else none, [])
  | c :: rest =>
    if !c.isDigit then (if seen then some n else none, c :: rest)
    else if n > 1000000 then (none, [])
    else numberFrom (n * 10 + (c.toNat - '0'.toNat)) true rest

def number (cs : List Char) : Option Nat × List Char := numberFrom 0 false cs

/-- The number that is all of a text. -/
def wholeNumber? (cs : List Char) : Option Nat :=
  match number cs with
  | (n, []) => n
  | _ => none

/-- Read the name of the text, if there is one. -/
def name (d : Directive) : Directive :=
  match d.rest with
  | '[' :: rest =>
    let d := { d with named := true, afterName := false }
    match rest.dropWhile (· != ']') with
    | [] => { d with rest, good := false }
    | _ :: after =>
      if rest = [']'] then { d with rest, good := false }
      else
        match wholeNumber? (rest.takeWhile (· != ']')) with
        | none => { d with rest := after, good := false }
        | some 1 => { d with rest := after, taken := false, afterName := true }
        | some _ => { d with rest := after, good := false, afterName := true }
  | _ => { d with afterName := false }

/-- Read one flag. -/
def flag? (l : Layout) : Char → Option Layout
  | '#' => some { l with alternate := true }
  | '0' => some { l with zeros := true }
  | '+' => some { l with plus := true }
  | '-' => some { l with minus := true }
  | ' ' => some { l with space := true }
  | _ => none

def flags (l : Layout) : List Char → Layout × List Char
  | [] => (l, [])
  | c :: rest =>
    match flag? l c with
    | some l => flags l rest
    | none => (l, c :: rest)

/-- Take the text for a number, which it is not. -/
def takeForNumber (d : Directive) (rest : List Char) (complaint : String) : Directive :=
  { d with rest, taken := true, afterName := false, complaints := d.complaints ++ complaint }

def width (d : Directive) : Directive :=
  match d.rest with
  | '*' :: rest => d.takeForNumber rest "%!(BADWIDTH)"
  | cs =>
    let (n, rest) := number cs
    { d with
      rest
      layout := { d.layout with width := n.getD 0 }
      good := d.good && !(d.afterName && n.isSome) }

def precision (d : Directive) : Directive :=
  match d.rest with
  | '.' :: rest =>
    let d := { d with rest, good := d.good && !d.afterName }.name
    match d.rest with
    | '*' :: rest => d.takeForNumber rest "%!(BADPREC)"
    | cs =>
      let (n, rest) := number cs
      { d with rest, layout := { d.layout with precision := some (n.getD 0) } }
  | _ => d

/-- Read everything up to the verb. -/
def read (d : Directive) : Directive :=
  let (layout, rest) := flags {} d.rest
  let d := { d with rest, layout }.name.width.precision
  if d.afterName then d else d.name

end Directive

/-! ## Templates -/

/-- Show a text that no directive has taken. -/
def untaken (taken named : Bool) : List TemplatePart :=
  if taken || named then [] else [.ofString "%!(EXTRA string=", .whole, .ofString ")"]

/-- Fill a template of at most `limit` characters. -/
def fillUpTo (value : List Char) : (limit : Nat) → (taken named : Bool) → List Char →
    List TemplatePart
  | 0, taken, named, _ => untaken taken named
  | limit + 1, taken, named, cs =>
    let front := .copied (cs.takeWhile (· != '%'))
    match cs.dropWhile (· != '%') with
    | [] => front :: untaken taken named
    | _ :: rest =>
      let d := Directive.read { rest, taken, named }
      let start := [front, .ofString d.complaints]
      let shows (s : String) (rest : List Char) : List TemplatePart :=
        start ++ .ofString s :: fillUpTo value limit d.taken d.named rest
      match d.rest with
      | [] => start ++ .ofString "%!(NOVERB)" :: untaken d.taken d.named
      | verb :: rest =>
        if verb == '%' then shows "%" rest
        else if !d.good then shows ("%!" ++ verb.toString ++ "(BADINDEX)") rest
        else if d.taken then shows ("%!" ++ verb.toString ++ "(MISSING)") rest
        else start ++ d.layout.write verb value ++ fillUpTo value limit true d.named rest

/-- Put a text into a template. -/
def fillTemplate (template value : List Char) : List TemplatePart :=
  (fillUpTo value (template.length + 1) false false template).filter (· ≠ .copied [])

end Pushdown.Text
