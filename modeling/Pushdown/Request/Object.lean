import Pushdown.Dictionary
import Pushdown.Json.Scalar
import Pushdown.Request.ReadError

/-!
# Objects of a request

An object of a document together with its place, so that every refusal can say where it
occurred. A member whose value is `null` counts as absent.
-/

namespace Pushdown

/-- An object with the texts of its members, and the path to it. -/
structure Object where
  path : Path := []
  /-- Of several members of one name the last counts. -/
  members : Dictionary String Json.Source := {}

namespace Object

/-- The object with these members, if there are any. -/
def ofMembers (path : Path) : Option (List (String × Json.Source)) → Read Object
  | some members => .ok { path, members := .ofList members }
  | none => .refuse path .notObject

/-- An object from its text within a document. -/
def read (path : Path) (source : Json.Source) : Read Object :=
  if Json.isNull source then .refuse path .nullObject else ofMembers path (Json.members? source)

/-- The object that a whole document is. -/
def readDocument (text : String) : Read Object :=
  if Json.isNull text.toList then .refuse [] .nullObject
  else ofMembers [] (Json.members? (Json.content text))

/-- The path to a member. -/
def pathTo (o : Object) (key : String) : Path := o.path ++ [.member key]

/-- Refuse the object itself. -/
def refuse {α : Type} (o : Object) (flaw : Flaw) : Read α := .refuse o.path flaw

/-- Refuse a member. -/
def refuseAt {α : Type} (o : Object) (key : String) (flaw : Flaw) : Read α :=
  .refuse (o.pathTo key) flaw

/-- The text of a member that is present. -/
def source? (o : Object) (key : String) : Option Json.Source :=
  (o.members.get? key).filter fun source => !Json.isNull source

def has (o : Object) (key : String) : Bool := (o.source? key).isSome

/-- The text of a member that has to be present. -/
def source (o : Object) (key : String) : Read Json.Source :=
  match o.source? key with
  | some source => .ok source
  | none => o.refuseAt key .missing

/-- A string that has to be present. -/
def string (o : Object) (key : String) : Read String := do
  match Json.string? (← o.source key) with
  | some s => return s
  | none => o.refuseAt key .notString

/-- A string that is empty if it is absent. -/
def stringOrEmpty (o : Object) (key : String) : Read String :=
  if o.has key then o.string key else .ok ""

/-- The member that tells what an object describes. -/
def tag (o : Object) : Read String := o.string "type"

/-- A string, number or truth value as text. -/
def scalar (o : Object) (key : String) : Read String := do
  match Json.scalar? (← o.source key) with
  | some value =>
    match value.display? with
    | some text => return text
    | none => o.refuseAt key .notScalar
  | none => o.refuseAt key .invalidValue

def boolean (o : Object) (key : String) (default : Bool) : Read Bool := do
  if !o.has key then return default
  let text ← o.scalar key
  match Text.readBool? text with
  | some b => return b
  | none => o.refuseAt key (.notBoolean text)

def integer (o : Object) (key : String) (default : Int) : Read Int := do
  if !o.has key then return default
  let text ← o.scalar key
  match Text.readInteger? text with
  | some n => return n
  | none => o.refuseAt key (.notInteger text)

/-- An object that has to be present. -/
def child (o : Object) (key : String) : Read Object := do
  read (o.pathTo key) (← o.source key)

/-- The objects of an array; an absent one is empty. -/
def list (o : Object) (key : String) : Read (List Object) :=
  match o.source? key with
  | none => .ok []
  | some source =>
    match Json.elements? source with
    | none => o.refuseAt key .notArray
    | some elements =>
      elements.zipIdx.mapM fun (element, index) => read (o.pathTo key ++ [.index index]) element

/-- The texts of an object of scalars. -/
def displays (o : Object) (key : String) (scalars : List (String × Json.Scalar)) :
    Read (Dictionary String String) := do
  let entries ← (Dictionary.ofList scalars).entries.mapM fun (name, value) =>
    match value.display? with
    | some text => .ok (name, text)
    | none => .refuse (o.pathTo key ++ [.member name]) .notScalar
  return ⟨entries⟩

/-- The object of scalars that a text holds. -/
def textsOf (o : Object) (key : String) (text : List Char) : Read (Dictionary String String) :=
  match Json.scalars? text with
  | some scalars => o.displays key scalars
  | none => o.refuseAt key .notValues

/-- An object of scalars, given as such or as a string that holds one. An absent object, or an
empty string, has no entries. -/
def texts (o : Object) (key : String) : Read (Dictionary String String) :=
  match o.source? key with
  | none => .ok {}
  | some source =>
    if source.head? == some '"' then
      match Json.string? source with
      | none => o.refuseAt key .invalidString
      | some "" => .ok {}
      | some text => o.textsOf key text.toList
    else o.textsOf key source

end Object

end Pushdown
