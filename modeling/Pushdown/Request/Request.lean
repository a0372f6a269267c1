import Pushdown.Request.StatementReader

/-!
# Requests

A request names its type, describes the virtual schema that it is made for and, if it asks for a
pushdown, holds the statement and the tables that are involved.
-/

namespace Pushdown

inductive RequestType where
  | pushdown | createVirtualSchema | dropVirtualSchema | refresh | setProperties
  | getCapabilities
deriving DecidableEq, Inhabited

namespace RequestType

def name : RequestType → String
  | pushdown => "pushdown"
  | createVirtualSchema => "createVirtualSchema"
  | dropVirtualSchema => "dropVirtualSchema"
  | refresh => "refresh"
  | setProperties => "setProperties"
  | getCapabilities => "getCapabilities"

def ofName? (s : String) : Option RequestType :=
  [pushdown, createVirtualSchema, dropVirtualSchema, refresh, setProperties,
    getCapabilities].find? (·.name == s)

end RequestType

/-- The virtual schema that a request is made for. -/
structure Schema where
  name : String := ""
  notes : Dictionary String String := {}
  properties : Dictionary String String := {}
deriving Inhabited

/-- A statement to push down. A request that does not come from a document may lack one. -/
structure PushdownRequest where
  statement : Option Statement := none
  tables : List TableInfo := []
  catalog : Catalog := .ofTables "" []
  schema : Schema := {}

/-- Whether columns are qualified because there are several tables. -/
def PushdownRequest.hasMultipleTables (r : PushdownRequest) : Bool := r.tables.length > 1

structure Request where
  type : RequestType
  schema : Schema
  pushdown : Option PushdownRequest := none

def Schema.read (o : Object) : Read Schema := do
  let name ← o.stringOrEmpty "name"
  let notes ← o.texts "adapterNotes"
  let properties ← o.texts "properties"
  return { name, notes, properties }

def ColumnInfo.read (o : Object) : Read ColumnInfo := do
  let name ← o.string "name"
  let type ← DataType.read (← o.child "dataType")
  return { name, type }

def TableInfo.read (o : Object) : Read TableInfo := do
  let name ← o.string "name"
  let adapterNotes ← o.stringOrEmpty "adapterNotes"
  let columns ← (← o.list "columns").mapM ColumnInfo.read
  return { name, adapterNotes, columns }

/-- The pushdown of a request, for the schema that the request names. -/
def PushdownRequest.read (root : Object) (schema : Schema) : Read PushdownRequest := do
  let tables ← (← root.list "involvedTables").mapM TableInfo.read
  let catalog := Catalog.ofTables schema.name tables
  let o ← root.child "pushdownRequest"
  let statement ← (Readers.within catalog maxDepth).statement o []
  return { statement := some statement, tables, catalog, schema }

namespace Request

/-- The type that a request names. -/
def readType (root : Object) : Read RequestType := do
  let name ← root.tag
  match RequestType.ofName? name with
  | some type => return type
  | none => root.refuseAt "type" (.unknownRequest name)

/-- The request that an object describes. -/
def ofObject (root : Object) : Read Request := do
  let type ← readType root
  let schema ←
    if root.has "schemaMetadataInfo" then Schema.read (← root.child "schemaMetadataInfo")
    else pure {}
  if type = .pushdown then
    return { type, schema, pushdown := some (← PushdownRequest.read root schema) }
  else return { type, schema }

/-- Read a request from the text of a document. -/
def read (text : String) : Read Request := do ofObject (← Object.readDocument text)

/-- Read a request that has to be a pushdown. -/
def readPushdown (text : String) : Read PushdownRequest := do
  let request ← read text
  match request.pushdown with
  | some pushdown => return pushdown
  | none => .refuse [.member "type"] (.notPushdown request.type.name)

end Request

end Pushdown
