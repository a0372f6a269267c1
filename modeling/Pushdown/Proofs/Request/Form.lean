import Pushdown.Request.Request

/-!
# The form of requests

What the objects of a request describe, and which of their members count for that. A member that is
not listed here is never looked at. Most objects say by a tag what they are, and the tag decides
which members they have.
-/

namespace Pushdown

/-- What an object of a request describes. -/
inductive Role where
  | request | schema | table | column | dataType
  | statement | fromItem | expression
  /-- An expression that may have an alias. -/
  | selectItem
  | sortKey | limit | frame | bound
deriving DecidableEq

/-- What stands in a member. -/
inductive Slot where
  | scalar
  /-- An object of scalars, or a string that holds one. -/
  | texts
  | one (role : Role)
  | many (role : Role)
deriving DecidableEq

namespace Slot

def expression : Slot := .one .expression

def expressions : Slot := .many .expression

end Slot

/-- The members of an expression that is neither a comparison nor a constant. -/
def Role.taggedMembers : (tag : String) → List (String × Slot)
  | "column" =>
    [("name", .scalar), ("tableName", .scalar), ("tableAlias", .scalar), ("columnNr", .scalar)]
  | "predicate_and" | "predicate_or" => [("expressions", .expressions)]
  | "predicate_not" | "predicate_is_null" | "predicate_is_not_null" => [("expression", .expression)]
  | "predicate_like" =>
    [("expression", .expression), ("pattern", .expression), ("escapeChar", .expression)]
  | "predicate_like_regexp" => [("expression", .expression), ("pattern", .expression)]
  | "predicate_between" =>
    [("expression", .expression), ("left", .expression), ("right", .expression)]
  | "predicate_in_constlist" => [("expression", .expression), ("arguments", .expressions)]
  | "predicate_in_subselect" => [("expression", .expression), ("select", .one .statement)]
  | "function_scalar" => [("name", .scalar), ("arguments", .expressions)]
  | "function_scalar_extract" => [("toExtract", .scalar), ("arguments", .expressions)]
  | "function_scalar_cast" => [("dataType", .one .dataType), ("arguments", .expressions)]
  | "function_scalar_case" =>
    [("basis", .expression), ("arguments", .expressions), ("results", .expressions)]
  | "function_aggregate" =>
    [("name", .scalar), ("distinct", .scalar), ("arguments", .expressions),
      ("filter", .expression)]
  | "function_aggregate_group_concat" =>
    [("distinct", .scalar), ("arguments", .expressions), ("orderBy", .many .sortKey),
      ("separator", .scalar)]
  | "function_window" =>
    [("name", .scalar), ("arguments", .expressions), ("partitionBy", .expressions),
      ("orderBy", .many .sortKey), ("frame", .one .frame)]
  | _ => []

def Role.constantMembers : LiteralType → List (String × Slot)
  | .null => []
  | .interval => [("value", .scalar), ("dataType", .one .dataType)]
  | _ => [("value", .scalar)]

def Role.expressionMembers (tag : String) : List (String × Slot) :=
  match Expression.operators.lookup tag, Expression.constants.lookup tag with
  | some _, _ => [("left", .expression), ("right", .expression)]
  | none, some type => constantMembers type
  | none, none => taggedMembers tag

def Role.fromItemMembers : (tag : String) → List (String × Slot)
  | "table" => [("name", .scalar), ("alias", .scalar)]
  | "join" =>
    [("join_type", .scalar), ("left", .one .fromItem), ("right", .one .fromItem),
      ("condition", .expression)]
  | "sub_select" => [("alias", .scalar), ("select", .one .statement)]
  | _ => []

/-- The members that count for an object with the tag, in the order in which they are read. -/
def Role.members (role : Role) (tag : String) : List (String × Slot) :=
  match role with
  | request =>
    ("type", .scalar) :: ("schemaMetadataInfo", .one .schema) ::
      if tag = RequestType.pushdown.name then
        [("involvedTables", .many .table), ("pushdownRequest", .one .statement)]
      else []
  | schema => [("name", .scalar), ("adapterNotes", .texts), ("properties", .texts)]
  | table => [("name", .scalar), ("adapterNotes", .scalar), ("columns", .many .column)]
  | column => [("name", .scalar), ("dataType", .one .dataType)]
  | dataType =>
    [("type", .scalar), ("precision", .scalar), ("scale", .scalar), ("size", .scalar),
      ("fraction", .scalar), ("srid", .scalar), ("bytesize", .scalar), ("characterSet", .scalar),
      ("withLocalTimeZone", .scalar), ("fromTo", .scalar)]
  | statement =>
    [("type", .scalar), ("from", .one .fromItem), ("selectList", .many .selectItem),
      ("filter", .expression), ("aggregationType", .scalar), ("groupBy", .expressions),
      ("having", .expression), ("orderBy", .many .sortKey), ("limit", .one .limit)]
  | fromItem => ("type", .scalar) :: fromItemMembers tag
  | expression => ("type", .scalar) :: expressionMembers tag
  | selectItem => ("type", .scalar) :: expressionMembers tag ++ [("alias", .scalar)]
  | sortKey =>
    [("type", .scalar), ("expression", .expression), ("isAscending", .scalar),
      ("nullsLast", .scalar)]
  | limit => [("numElements", .scalar), ("offset", .scalar)]
  | frame => [("units", .scalar), ("start", .one .bound), ("end", .one .bound)]
  | bound => [("type", .scalar), ("offset", .scalar)]

namespace Object

variable {o : Object} {key : String}

/-- The tag of an object, which is empty if it has none. -/
def tagText (o : Object) : String := ((o.source? "type").bind Json.string?).getD ""

/-- The members that count for an object in a role. -/
def membersAs (o : Object) (role : Role) : List (String × Slot) := role.members o.tagText

theorem read_eq_ok {path : Path} {s : Json.Source} :
    read path s = .ok o ↔ ∃ members, Json.isNull s = false ∧ Json.members? s = some members ∧
      o = ⟨path, .ofList members⟩ := by
  unfold read
  cases null : Json.isNull s <;> cases found : Json.members? s <;>
    simp [ofMembers, Read.refuse, eq_comm]

theorem source_eq_ok {v : Json.Source} : o.source key = .ok v ↔ o.source? key = some v := by
  unfold source
  cases found : o.source? key <;> simp [refuseAt, Read.refuse]

theorem has_eq_true : o.has key = true ↔ ∃ v, o.source? key = some v := Option.isSome_iff_exists

theorem tagText_of_tag {text : String} (h : o.tag = .ok text) : o.tagText = text := by
  unfold tag string at h
  cases found : o.source "type" with
  | error e => simp [found, bind, Except.bind] at h
  | ok v =>
    cases decoded : Json.string? v with
    | none => simp [found, decoded, bind, Except.bind, refuseAt, Read.refuse] at h
    | some s =>
      simp only [found, decoded, bind, Except.bind, pure, Except.pure, Except.ok.injEq] at h
      simp [tagText, source_eq_ok.mp found, decoded, h]

end Object

theorem RequestType.name_of_ofName? {s : String} {type : RequestType} (h : ofName? s = some type) :
    type.name = s := by
  simpa using List.find?_some h

theorem RequestType.eq_pushdown_iff {s : String} {type : RequestType} (h : ofName? s = some type) :
    type = .pushdown ↔ s = pushdown.name := by
  rw [← name_of_ofName? h]
  cases type <;> decide

end Pushdown
