import Pushdown.Dialect.Builtin
import Pushdown.Text.Quoted

/-!
# Registries of dialects

Dialects by identifier, in any case and with blanks around it. An identifier may be an alias
of another one; aliases are followed once. The dialects are the built-in ones: a registry of
dialects that others construct from the notes is not described here.
-/

namespace Pushdown

/-- An identifier that no dialect is registered under. -/
structure UnknownDialect where
  id : String
  known : List String
deriving DecidableEq, Inhabited

def UnknownDialect.message (e : UnknownDialect) : String :=
  "unknown SQL dialect " ++ Text.quoted e.id ++ " (known: " ++ ", ".intercalate e.known ++ ")"

structure Registry where
  /-- In capital letters, in the order of registration. -/
  dialects : List (String × Builtin)
  aliases : Dictionary String String
deriving Inhabited

namespace Registry

/-- A registry from identifiers and aliases in any case. -/
def ofLists (dialects : List (String × Builtin)) (aliases : List (String × String)) : Registry :=
  { dialects := dialects.map fun (id, dialect) => (Text.upper id, dialect)
    aliases := .ofList (aliases.map fun (aliasName, id) => (Text.upper aliasName, Text.upper id)) }

/-- The built-in dialects under their own identifiers and the usual aliases. -/
def standard : Registry :=
  ofLists (Builtin.all.map fun b => (b.id, b))
    [("POSTGRES", "POSTGRESQL"), ("MARIADB", "MYSQL"), ("MSSQL", "SQLSERVER")]

/-- The identifiers in ascending order. -/
def ids (r : Registry) : List String := sortTexts (r.dialects.map (·.1))

/-- The identifier that a name stands for. -/
def canonical (r : Registry) (id : String) : String :=
  let id := Text.upper (Text.trim id)
  (r.aliases.get? id).getD id

def find? (r : Registry) (id : String) : Option Builtin :=
  (Dictionary.ofList r.dialects).get? (r.canonical id)

/-- The dialect under an identifier, for the database that the notes describe. -/
def resolve (r : Registry) (id : String) (notes : Notes) : Except UnknownDialect Dialect :=
  match r.find? id with
  | some b => .ok (b.build notes)
  | none => .error ⟨r.canonical id, r.ids⟩

/-- The dialect under an identifier, for a database that nothing is known about. It is the one
that `resolve` returns without notes. -/
def lookup (r : Registry) (id : String) : Except UnknownDialect Dialect := r.resolve id {}

end Registry

end Pushdown
