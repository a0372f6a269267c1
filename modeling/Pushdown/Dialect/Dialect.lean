import Pushdown.Dialect.Notes
import Pushdown.Dialect.Profile
import Pushdown.Syntax.Kind

/-!
# Dialects

A dialect is a profile together with the few constructs that it arranges differently and the
notes about the database that it was made for.
-/

namespace Pushdown

/-- How a field of a date is taken out. -/
inductive ExtractStyle where
  /-- `EXTRACT(part FROM x)`. -/
  | standard
  /-- `DATEPART(part, x)`. -/
  | datePart
  /-- `CAST(STRFTIME(format, x) AS type)`. -/
  | strftime
deriving DecidableEq, Inhabited

/-- How the texts of a group are joined to one. -/
inductive ConcatStyle where
  /-- `GROUP_CONCAT(x ORDER BY ... SEPARATOR s)`. -/
  | groupConcat
  /-- `GROUP_CONCAT(x, s ORDER BY ...)`, where DISTINCT excludes a separator. -/
  | groupConcatArgument
  /-- `STRING_AGG(x, s ORDER BY ...)`. -/
  | stringAgg
  /-- The same, where the separator has to be given. -/
  | stringAggSeparator
  /-- `STRING_AGG(x, s) WITHIN GROUP (ORDER BY ...)`, never with DISTINCT. -/
  | stringAggWithin
  /-- `LISTAGG(x, s) WITHIN GROUP (ORDER BY ...)`, with DISTINCT from a version on. -/
  | listagg (distinctSince : String)
deriving DecidableEq, Inhabited

structure Dialect where
  id : String
  profile : Profile
  notes : Notes := {}
  extractStyle : ExtractStyle := .standard
  concatStyle : ConcatStyle := .groupConcat
  /-- Kinds of nodes whose text is put between marks. -/
  marked : List Kind := []
  /-- The marks in front of and behind the text of a node of a marked kind. -/
  marks : Kind → String × String := fun _ => ("<<", ">>")
deriving Inhabited

namespace Dialect

def has (d : Dialect) (c : Capability) : Bool := d.profile.has c

/-- A dialect of a caller's own, with the standard constructs throughout. -/
def custom (id : String) (profile : Profile) (marked : List Kind) (notes : Notes) : Dialect :=
  { id := Text.upper id, profile, notes, marked }

end Dialect

end Pushdown
