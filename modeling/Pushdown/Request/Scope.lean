/-!
# Scopes

A scope holds the FROM items that a statement introduces. A column refers to an item by its
alias, or by the name of its table: statements see their own items first, then those of the
statements around them.
-/

namespace Pushdown

/-- A FROM item that columns may refer to. -/
structure FromItem where
  /-- The name of the table, or the alias of a derived table. -/
  table : String
  aliasName : String := ""
  derived : Bool := false
deriving DecidableEq, Inhabited

/-- The name under which the item is introduced. -/
def FromItem.reference (i : FromItem) : String := if i.aliasName = "" then i.table else i.aliasName

/-- The FROM items of one statement, in the order in which they are introduced. -/
structure Scope where
  items : List FromItem := []
deriving DecidableEq, Inhabited

namespace Scope

/-- The item with this reference name. -/
def named? (s : Scope) (reference : String) : Option FromItem :=
  s.items.find? (·.reference == reference)

/-- Introduce an item, unless its reference name is taken. -/
def add? (s : Scope) (item : FromItem) : Option Scope :=
  if (s.named? item.reference).isSome then none else some ⟨s.items ++ [item]⟩

/-- The base tables with this name. -/
def baseTables (s : Scope) (table : String) : List FromItem :=
  s.items.filter fun i => !i.derived && i.table == table

/-- The item that a column means within this scope. With an alias only that counts. A table name
is a reference name in the first place, and otherwise has to belong to one base table only. -/
def find? (s : Scope) (table aliasName : String) : Option FromItem :=
  if aliasName ≠ "" then s.named? aliasName
  else
    match s.named? table with
    | some item => some item
    | none =>
      match s.baseTables table with
      | [item] => some item
      | _ => none

/-- The item that a column means, where the scopes are ordered from the innermost outwards. -/
def resolve? (scopes : List Scope) (table aliasName : String) : Option FromItem :=
  scopes.findSome? (·.find? table aliasName)

end Scope

end Pushdown
