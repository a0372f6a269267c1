import Pushdown.Request.Malformed
import Pushdown.Syntax.Fault

/-!
# Why a request is refused

Either the document does not have the form of a request, or it describes a statement that
breaks a rule of the syntax tree.
-/

namespace Pushdown

inductive ReadError where
  | malformed (error : Malformed)
  | construction (error : ConstructionError)
deriving DecidableEq, Inhabited

/-- The outcome of reading a part of a request. -/
abbrev Read := Except ReadError

namespace Read

/-- Refuse what stands at a path. -/
def refuse {α : Type} (path : Path) (flaw : Flaw) : Read α := .error (.malformed ⟨path, flaw⟩)

/-- A node that has been built, or the rule that it breaks. -/
def build {α : Type} (result : Except ConstructionError α) : Read α :=
  result.mapError .construction

end Read

end Pushdown
