import Pushdown.Text.Case

/-!
# Logical data types

The type of a column, the target of a cast and the range of an interval literal, with their
parameters. A spelling that names no known type is kept as it came, because it may still be
shown in a message.
-/

namespace Pushdown

/-- The family of a data type. -/
inductive TypeKind where
  | decimal | double | varchar | char | date | timestamp | boolean | interval | geometry
  | hashtype
  | other (name : String)
deriving DecidableEq, Inhabited

namespace TypeKind

def name : TypeKind → String
  | decimal => "DECIMAL"
  | double => "DOUBLE"
  | varchar => "VARCHAR"
  | char => "CHAR"
  | date => "DATE"
  | timestamp => "TIMESTAMP"
  | boolean => "BOOLEAN"
  | interval => "INTERVAL"
  | geometry => "GEOMETRY"
  | hashtype => "HASHTYPE"
  | other name => name

/-- The families with a meaning of their own. -/
def known : List TypeKind :=
  [decimal, double, varchar, char, date, timestamp, boolean, interval, geometry, hashtype]

/-- The family with exactly this name. -/
def ofName (s : String) : TypeKind := (known.find? (·.name == s)).getD (other s)

/-- The known family with this name in any case. -/
def read? (s : String) : Option TypeKind := known.find? (·.name == Text.upper s)

end TypeKind

/-- The fields that an interval spans. -/
inductive IntervalRange where
  | yearToMonth | dayToSeconds
  | other (name : String)
deriving DecidableEq, Inhabited

namespace IntervalRange

def name : IntervalRange → String
  | yearToMonth => "YEAR TO MONTH"
  | dayToSeconds => "DAY TO SECONDS"
  | other name => name

def ofName (s : String) : IntervalRange :=
  if s = "YEAR TO MONTH" then yearToMonth
  else if s = "DAY TO SECONDS" then dayToSeconds
  else other s

/-- Whether the range is one of the two that have a meaning. -/
def isKnown : IntervalRange → Bool
  | yearToMonth | dayToSeconds => true
  | other _ => false

/-- The range as it stands behind an interval in a statement. -/
def qualifier : IntervalRange → String
  | dayToSeconds => "DAY TO SECOND"
  | _ => "YEAR TO MONTH"

end IntervalRange

/-- A data type; only the parameters that belong to its family have a meaning. The default
value stands for a type that nothing is known about. -/
structure DataType where
  kind : TypeKind := .other ""
  characterSet : String := ""
  range : IntervalRange := .other ""
  precision : Int := 0
  scale : Int := 0
  size : Int := 0
  fraction : Int := 0
  srid : Int := 0
  byteSize : Int := 0
  withLocalTimeZone : Bool := false
deriving DecidableEq, Inhabited

/-- The type as messages and catalogs show it. -/
def DataType.display (t : DataType) : String :=
  match t.kind with
  | .decimal => s!"DECIMAL({t.precision}, {t.scale})"
  | .varchar | .char => s!"{t.kind.name}({t.size})"
  | .timestamp =>
    if t.withLocalTimeZone then "TIMESTAMP WITH LOCAL TIME ZONE" else "TIMESTAMP"
  | .interval => "INTERVAL " ++ t.range.name
  | .other "" => "UNSUPPORTED"
  | kind => kind.name

end Pushdown
