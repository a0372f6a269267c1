import Pushdown.Dictionary
import Pushdown.Syntax.DataType

/-!
# Catalogs

The tables that a request involves, as a project of a library for database schemas, and what is
looked up in it. The project is put together first: of several descriptions of a table only the
first is taken. Then the tables and columns of the project are indexed by name: of several columns
of one name only the last is found. The type of a column is kept beside the project, under the
address of the column.
-/

namespace Pushdown

structure ColumnInfo where
  name : String
  type : DataType
deriving DecidableEq, Inhabited

structure TableInfo where
  name : String
  adapterNotes : String := ""
  columns : List ColumnInfo := []
deriving DecidableEq, Inhabited

/-- A value with the address that it is stored at. -/
structure Ref (α : Type) where
  address : Nat
  value : α
deriving Inhabited

/-- A library that describes schemas as projects of tables. A table refers to its columns. -/
structure Dbml where
  Column : Type
  Table : Type
  Project : Type
  newColumn : (name type : String) → Column
  columnName : Column → String
  columnType : Column → String
  newTable : (name : String) → Table
  tableName : Table → String
  columns : Table → List (Ref Column)
  addColumn : Table → Ref Column → Table
  newProject : (name : String) → Project
  projectName : Project → String
  tables : Project → List Table
  addTable : Project → Table → Project

namespace Dbml

structure PlainColumn where
  name : String
  type : String
deriving Inhabited

structure PlainTable where
  name : String
  columns : List (Ref PlainColumn) := []
deriving Inhabited

structure PlainProject where
  name : String
  tables : List PlainTable := []
deriving Inhabited

/-- A library that keeps what it is given, in lists. Requests are read with it; the lookups are the
same with any other library that keeps what it is given. -/
def plain : Dbml where
  Column := PlainColumn
  Table := PlainTable
  Project := PlainProject
  newColumn name type := { name, type }
  columnName := PlainColumn.name
  columnType := PlainColumn.type
  newTable name := { name }
  tableName := PlainTable.name
  columns := PlainTable.columns
  addColumn table column := { table with columns := table.columns ++ [column] }
  newProject name := { name }
  projectName := PlainProject.name
  tables := PlainProject.tables
  addTable project table := { project with tables := project.tables ++ [table] }

end Dbml

/-- The tables that a request involves, as described with the library `D`. -/
structure Catalog (D : Dbml := .plain) where
  project : D.Project
  tables : Dictionary String D.Table := {}
  /-- The columns of each table by their names. -/
  fields : Dictionary String (Dictionary String (Ref D.Column)) := {}
  /-- The types of the columns by their addresses. -/
  types : Dictionary Nat DataType := {}

namespace Catalog

variable {D : Dbml}

/-- A project with the types of its columns, while it is put together. -/
structure Draft (D : Dbml) where
  project : D.Project
  types : Dictionary Nat DataType := {}
  /-- The first address that nothing is stored at. -/
  free : Nat := 0
  /-- The names of the tables that have been described. -/
  seen : List String := []

namespace Draft

/-- Store a column, note its type and add it to the table. -/
def addColumn (s : Draft D × D.Table) (c : ColumnInfo) : Draft D × D.Table :=
  let (d, table) := s
  let column : Ref D.Column := ⟨d.free, D.newColumn c.name c.type.display⟩
  ({ d with types := d.types.insert column.address c.type, free := d.free + 1 },
    D.addColumn table column)

/-- Add a table, unless it has been described before. -/
def addTable (d : Draft D) (t : TableInfo) : Draft D :=
  if d.seen.contains t.name then d
  else
    let (d, table) := t.columns.foldl addColumn
      ({ d with seen := t.name :: d.seen }, D.newTable t.name)
    { d with project := D.addTable d.project table }

def addTables (d : Draft D) (tables : List TableInfo) : Draft D := tables.foldl addTable d

end Draft

/-- The columns of a table by their names. -/
def columnsByName (table : D.Table) : Dictionary String (Ref D.Column) :=
  .ofList ((D.columns table).map fun column => (D.columnName column.value, column))

/-- Index the tables of a project and their columns by name. -/
def index (project : D.Project) (types : Dictionary Nat DataType) : Catalog D :=
  (D.tables project).foldl (fun c table =>
    { c with
      tables := c.tables.insert (D.tableName table) table
      fields := c.fields.insert (D.tableName table) (columnsByName table) }) { project, types }

/-- The catalog of the described tables, under the name of a schema. -/
def ofTables (name : String) (tables : List TableInfo) (D : Dbml := .plain) : Catalog D :=
  let d := Draft.addTables { project := D.newProject name } tables
  index d.project d.types

instance : Inhabited Catalog := ⟨ofTables "" []⟩

def has (c : Catalog D) (table : String) : Bool := c.tables.contains table

def column? (c : Catalog D) (table column : String) : Option (Ref D.Column) :=
  (c.fields.get? table).bind (·.get? column)

/-- The type of a column. -/
def type? (c : Catalog D) (table column : String) : Option DataType :=
  (c.column? table column).map fun found => (c.types.get? found.address).getD {}

/-- The names of the tables in ascending order. -/
def tableNames (c : Catalog D) : List String := sortTexts c.tables.keys

end Catalog

end Pushdown
