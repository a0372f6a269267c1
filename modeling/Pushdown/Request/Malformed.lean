import Pushdown.Text.Quoted

/-!
# Malformed requests

Where in a request something is wrong, and what. A place is a path of member names and list
positions from the root of the document.
-/

namespace Pushdown

/-- A step from a value of a document to a part of it. -/
inductive Step where
  | member (name : String)
  | index (position : Nat)
deriving DecidableEq, Inhabited

/-- The steps from the root to a value. -/
abbrev Path := List Step

namespace Path

/-- The step behind what comes before it. -/
def stepText (first : Bool) : Step → String
  | .member name => if first then name else "." ++ name
  | .index position => s!"[{position}]"

/-- The path with points between the members. -/
def text : Path → String
  | [] => ""
  | first :: rest => stepText true first ++ String.join (rest.map (stepText false))

end Path

/-- What is wrong with a value of a request. -/
inductive Flaw where
  | missing
  | nullObject
  | notObject
  | notString
  | notScalar
  | invalidValue
  | invalidString
  | notArray
  | notValues
  | notBoolean (text : String)
  | notInteger (text : String)
  | tooDeep (limit : Nat)
  | unknownRequest (type : String)
  | notPushdown (type : String)
  | notSelect (type : String)
  | unknownFromItem (type : String)
  | unknownNode (type : String)
  | unknownDataType (type : String)
  | unknownRange (range : String)
  | unknownAggregation (type : String)
  | unknownJoin (type : String)
  | unknownBound (type : String)
  | notSortKey (type : String)
  | tableTwice (name : String)
  | columnWithoutTable (column : String)
  | outOfScope (column table : String)
  | noSuchColumn (table column : String)
  | argumentCount (expected actual : Nat)
  | resultCount (branches actual : Nat)
  | notQuoteFlag (text : String)
  | notBatch
  | emptyBatch
  | noRequest
  | other (text : String)
deriving DecidableEq, Inhabited

open Text (quoted) in
/-- The flaw in words. -/
def Flaw.text : Flaw → String
  | missing => "required field is missing"
  | nullObject => "expected an object, got null"
  | notObject => "expected an object"
  | notString => "expected a string"
  | notScalar => "expected a scalar value"
  | invalidValue => "invalid value"
  | invalidString => "invalid string"
  | notArray => "expected an array"
  | notValues => "expected an object of values"
  | notBoolean text => "expected a boolean, got " ++ quoted text
  | notInteger text => "expected an integer, got " ++ quoted text
  | tooDeep limit => s!"nested deeper than {limit} levels"
  | unknownRequest type => "unknown request type " ++ quoted type
  | notPushdown type => "expected a pushdown request, got " ++ quoted type
  | notSelect type => "expected select, got " ++ quoted type
  | unknownFromItem type => "unknown FROM item " ++ quoted type
  | unknownNode type => "unknown node type " ++ quoted type
  | unknownDataType type => "unknown data type " ++ quoted type
  | unknownRange range => "unknown interval range " ++ quoted range
  | unknownAggregation type => "unknown aggregation type " ++ quoted type
  | unknownJoin type => "unknown join type " ++ quoted type
  | unknownBound type => "unknown frame bound " ++ quoted type
  | notSortKey type => "expected order_by_element, got " ++ quoted type
  | tableTwice name => "table " ++ quoted name ++ " is introduced twice"
  | columnWithoutTable column => "column " ++ quoted column ++ " names no table"
  | outOfScope column table =>
    "column " ++ quoted column ++ " references table " ++ quoted table ++ " which is not in scope"
  | noSuchColumn table column => "table " ++ quoted table ++ " has no column " ++ quoted column
  | argumentCount expected actual => s!"expected {expected} arguments, got {actual}"
  | resultCount branches actual =>
    s!"expected {branches} or {branches + 1} results, got {actual}"
  | notQuoteFlag text => "expected a boolean, got " ++ text
  | notBatch => "expected an array of requests"
  | emptyBatch => "empty request batch"
  | noRequest => "no pushdown request"
  | other text => text

/-- A flaw and its place. -/
structure Malformed where
  path : Path := []
  flaw : Flaw
deriving DecidableEq, Inhabited

def Malformed.message (e : Malformed) : String :=
  let place := e.path.text
  if place = "" then "malformed request: " ++ e.flaw.text
  else "malformed request at " ++ place ++ ": " ++ e.flaw.text

end Pushdown
