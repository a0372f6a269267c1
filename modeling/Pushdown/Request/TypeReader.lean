import Pushdown.Request.Object
import Pushdown.Syntax.DataType

/-!
# Data types in requests
-/

namespace Pushdown

/-- The range of an interval, in any case. -/
def IntervalRange.read (o : Object) : Read IntervalRange := do
  let name ← o.string "fromTo"
  let range := IntervalRange.ofName (Text.upper name)
  if range.isKnown then return range else o.refuseAt "fromTo" (.unknownRange name)

/-- A data type with all its parameters. Only an interval needs a range. -/
def DataType.read (o : Object) : Read DataType := do
  let name ← o.tag
  match TypeKind.read? name with
  | none => o.refuseAt "type" (.unknownDataType name)
  | some kind =>
    let precision ← o.integer "precision" 0
    let scale ← o.integer "scale" 0
    let size ← o.integer "size" 0
    let fraction ← o.integer "fraction" 0
    let srid ← o.integer "srid" 0
    let byteSize ← o.integer "bytesize" 0
    let characterSet ← o.stringOrEmpty "characterSet"
    let withLocalTimeZone ← o.boolean "withLocalTimeZone" false
    let range ← if kind = .interval then IntervalRange.read o else pure (.other "")
    return { kind, characterSet, range, precision, scale, size, fraction, srid, byteSize,
             withLocalTimeZone }

end Pushdown
