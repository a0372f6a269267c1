import Pushdown.Json.Stream
import Pushdown.Text.Number

/-!
# Values read to the end

Scalar values, and flat objects of them. A value is read together with everything inside it,
but what is inside an array or an object is only checked, because no scalar can come from it.
-/

namespace Pushdown.Json

/-- A value as far as it is a scalar. -/
inductive Scalar where
  | null
  | bool (value : Bool)
  /-- A number with the spelling that it has in the document. -/
  | number (spelling : String)
  | text (s : String)
  | compound
deriving DecidableEq, Inhabited

/-- The text of a scalar; a compound value has none. -/
def Scalar.display? : Scalar → Option String
  | null => some ""
  | bool true => some "true"
  | bool false => some "false"
  | number spelling => some spelling
  | text s => some s
  | compound => none

/-- The characters of a number behind its first one, and what follows. -/
def numberUpTo (front : List Char) : (limit : Nat) → Stream → List Char × Stream
  | 0, s => (front.reverse, s)
  | limit + 1, s =>
    let c := Char.ofNat s.peek.toNat
    if isNumberChar c then numberUpTo (c :: front) limit s.skip
    else if s.peek != 0 then (front.reverse, s)
    else
      match s.next? with
      | some s => numberUpTo front limit s
      | none => (front.reverse, s)

/-- A number, if a finite double is near it. -/
def number? (s : Stream) : Option (Scalar × Stream) :=
  let c := Char.ofNat s.peek.toNat
  if c.isDigit || c == '-' then
    let (spelling, after) := numberUpTo [c] s.budget s.skip
    if Text.isFiniteDouble spelling then
      some (.number (String.ofList spelling), after.forget)
    else none
  else none

/-- A value that is no container. -/
def simple? (s : Stream) : Option (Scalar × Stream) :=
  match Char.ofNat s.peek.toNat with
  | '"' => s.skip.string?.map fun (text, s) => (.text text, s)
  | 't' => (s.afterWord? "rue").map fun s => (.bool true, s)
  | 'f' => (s.afterWord? "alse").map fun s => (.bool false, s)
  | 'n' => (s.afterWord? "ull").map fun s => (.null, s)
  | _ => number? s

/-- One or more parts with commas between them, up to the closing bracket, behind those of `front`,
which are in reverse. -/
def streamPartsUpTo {α : Type} (closing : Char) (part? : Stream → Option (α × Stream))
    (front : List α) : (limit : Nat) → Stream → Option (List α × Stream)
  | 0, _ => none
  | limit + 1, s => do
    let (part, s) ← part? s
    let s := s.skipSpace
    let c := Char.ofNat s.peek.toNat
    if c == ',' then streamPartsUpTo closing part? (part :: front) limit s.skip
    else if c == closing then some ((part :: front).reverse, s.skip)
    else none

/-- The parts of a container from its opening bracket on. -/
def streamParts? {α : Type} (closing : Char) (part? : Stream → Option (α × Stream))
    (s : Stream) : Option (List α × Stream) :=
  let s := s.skip.skipSpace
  if s.peek == closing.toNat.toUInt8 then some ([], s.skip)
  else streamPartsUpTo closing part? [] s.budget s

/-- A member with its name and what `value?` reads behind the colon. -/
def streamMember? {α : Type} (value? : Stream → Option (α × Stream)) (s : Stream) :
    Option ((String × α) × Stream) := do
  let (name, s) ← s.name?
  let s := s.skipSpace
  if s.peek == ':'.toNat.toUInt8 then
    let (value, s) ← value? s.skip
    some ((name, value), s)
  else none

/-- A value with containers nested at most `depth` deep. -/
def scalarWithin? : (depth : Nat) → Stream → Option (Scalar × Stream)
  | 0, s => simple? s.skipSpace
  | depth + 1, s =>
    let s := s.skipSpace
    match Char.ofNat s.peek.toNat with
    | '{' =>
      (streamParts? '}' (streamMember? (scalarWithin? depth)) s).map fun (_, s) => (.compound, s)
    | '[' => (streamParts? ']' (scalarWithin? depth) s).map fun (_, s) => (.compound, s)
    | _ => simple? s

/-- The start of a value, which a separator may stand before. -/
def atValue (s : Stream) : Stream :=
  let s := s.skipSpace
  if s.peek == ','.toNat.toUInt8 || s.peek == ':'.toNat.toUInt8 then s.skip else s

/-- A value on its own. -/
def scalar? (cs : Source) : Option Scalar :=
  (scalarWithin? maxLevel.toNat (atValue (.ofBytes (Text.bytes cs)))).map (·.1)

/-- The object of scalars at the start of a text. What follows it is not looked at. -/
def scalars? (cs : List Char) : Option (List (String × Scalar)) :=
  let s := (atValue (.ofBytes (Text.bytes cs))).skipSpace
  match Char.ofNat s.peek.toNat with
  | '{' =>
    (streamParts? '}' (streamMember? (scalarWithin? (maxLevel.toNat - 1))) s).map (·.1)
  | 'n' => (s.afterWord? "ull").map fun _ => []
  | _ => none

end Pushdown.Json
