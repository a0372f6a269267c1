import Pushdown.Dialect.Dialect
import Pushdown.Sql.Fragment

/-!
# What a dialect cannot express

A construct that a dialect lacks is refused with the feature that is missing, never approximated.
The functions that render a construct put together parts that may have been refused already.
-/

namespace Pushdown

/-- A construct that a dialect cannot express. -/
structure Unsupported where
  dialect : String
  /-- The name of the kind of node, empty if there is no node. -/
  node : String
  feature : String
  hint : String := ""
deriving DecidableEq, Inhabited

def Unsupported.message (e : Unsupported) : String :=
  e.dialect ++ ": " ++ e.feature ++ " is not supported" ++
    (if e.node = "" then "" else " (" ++ e.node ++ " node)") ++
    (if e.hint = "" then "" else ": " ++ e.hint)

/-- What a request says about the names in its statement. -/
structure Context where
  catalog : String := ""
  schema : String := ""
  /-- Every name is quoted. -/
  quoteNames : Bool := false
  /-- Columns are qualified because there are several tables. -/
  multipleTables : Bool := false
deriving DecidableEq, Inhabited

namespace Render

abbrev Result := Except Unsupported

def refuse {α : Type} (d : Dialect) (kind : Kind) (feature : String) (hint : String := "") :
    Result α :=
  .error ⟨d.id, kind.name, feature, hint⟩

/-- Refuse unless the dialect has the capability. -/
def require (d : Dialect) (c : Capability) (kind : Kind) (feature : String) : Result Unit :=
  if d.has c then .ok () else refuse d kind feature

/-- Make a check only where it applies. -/
def checkIf (applies : Bool) (check : Result Unit) : Result Unit :=
  if applies then check else .ok ()

/-- The parts in their order, or the first refusal among them. -/
def inOrder {α : Type} (parts : List (Result α)) : Result (List α) := parts.mapM id

/-- A part that may be missing. -/
def optional {α : Type} : Option (Result α) → Result (Option α)
  | some part => some <$> part
  | none => .ok none

/-- A clause behind its keyword, or nothing. -/
def clause (keyword : String) : Option Sql → Sql
  | some s => Sql.raw keyword ++ s
  | none => []

end Render

end Pushdown
