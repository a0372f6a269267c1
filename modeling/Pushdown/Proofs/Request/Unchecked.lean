import Pushdown.Proofs.Request.WellFormed
import Pushdown.Proofs.Syntax.Lawful

/-!
# What documents describe

`Request.describe` reads a document as `Request.read` does, but puts the nodes of the tree together
without a check of their laws. So a document describes a tree whether or not the tree is lawful.
`Read.Guards` says that one reading does what another does unless a rule of the syntax tree is
broken; it passes through the steps of a reading and through its levels. Hence the documents that
are accepted are read as what they describe, and those that describe an unlawful tree are refused.
-/

namespace Pushdown

/-! ## Reading with and without checks -/

/-- The first outcome is the second, or says that a rule of the syntax tree is broken. -/
def Read.Guards {α : Type} (x y : Read α) : Prop := x = y ∨ ∃ e, x = .error (.construction e)

namespace Read.Guards

variable {α β : Type} {x y : Read α}

theorem refl (x : Read α) : x.Guards x := .inl rfl

theorem bind {f g : α → Read β} (h : x.Guards y) (next : ∀ a, (f a).Guards (g a)) :
    Read.Guards (x >>= f) (y >>= g) := by
  rcases h with rfl | ⟨e, rfl⟩
  · cases x with
    | ok a => exact next a
    | error e => exact .inl rfl
  · exact .inr ⟨e, rfl⟩

theorem map (f : α → β) (h : x.Guards y) : Read.Guards (f <$> x) (f <$> y) := by
  rcases h with rfl | ⟨e, rfl⟩
  · exact .inl rfl
  · exact .inr ⟨e, rfl⟩

theorem mapM {f g : α → Read β} (each : ∀ a, (f a).Guards (g a)) (as : List α) :
    Read.Guards (as.mapM f) (as.mapM g) := by
  induction as with
  | nil => exact refl _
  | cons a as ih =>
    rw [List.mapM_cons, List.mapM_cons]
    exact (each a).bind fun b => ih.bind fun bs => refl _

theorem ite {c : Prop} [Decidable c] {x' y' : Read α} (h : x.Guards y) (h' : x'.Guards y') :
    (if c then x else x').Guards (if c then y else y') := by
  split
  · exact h
  · exact h'

/-- A construction that returns one node if any guards that node. -/
theorem build {result : Except ConstructionError α} {a : α}
    (only : ∀ b, result = .ok b → b = a) : (Read.build result).Guards (pure a) := by
  cases result with
  | ok b => exact .inl (by rw [only b rfl]; rfl)
  | error e => exact .inr ⟨e, rfl⟩

end Read.Guards

namespace Readers

/-- The first readers do what the second do unless a rule is broken. -/
structure Guards (r r' : Readers) : Prop where
  statement : ∀ o scopes, (r.statement o scopes).Guards (r'.statement o scopes)
  fromItem : ∀ o outer scope, (r.fromItem o outer scope).Guards (r'.fromItem o outer scope)
  expression : ∀ o scopes, (r.expression o scopes).Guards (r'.expression o scopes)

namespace Guards

variable {r r' : Readers} (h : r.Guards r') (o : Object) (key : String) (scopes : List Scope)

include h

theorem child : (r.child o key scopes).Guards (r'.child o key scopes) :=
  (Read.Guards.refl _).bind fun o => h.expression o scopes

theorem child? : (r.child? o key scopes).Guards (r'.child? o key scopes) :=
  .ite ((h.child o key scopes).bind fun _ => .refl _) (.refl _)

theorem children : (r.children o key scopes).Guards (r'.children o key scopes) :=
  (Read.Guards.refl _).bind fun os => .mapM (fun o => h.expression o scopes) os

theorem arguments : (r.arguments o scopes).Guards (r'.arguments o scopes) := h.children ..

theorem argument : (r.argument o scopes).Guards (r'.argument o scopes) :=
  (h.arguments o scopes).bind fun _ => .refl _

theorem sortKey : (r.sortKey scopes o).Guards (r'.sortKey scopes o) := by
  refine (Read.Guards.refl _).bind fun tag => .ite (.refl _) ?_
  exact (h.child ..).bind fun expr => .refl _

end Guards

end Readers

namespace Unchecked

/-- A sort order that may be absent. -/
def order? (r : Readers) (o : Object) (scopes : List Scope) :
    Read (Option (List (SortKey Node))) := do
  if !o.has "orderBy" then return none
  let keys ← (← o.list "orderBy").mapM (r.sortKey scopes)
  return some keys

/-! ## Expressions -/

def constant (o : Object) (type : LiteralType) : Read Node := do
  match type with
  | .null => return .literal { type := .null }
  | .interval =>
    let value ← o.scalar "value"
    let range ← DataType.read (← o.child "dataType")
    return .literal { type := .interval, value, interval := range }
  | .bool =>
    let value ← o.scalar "value"
    return .literal { type := .bool, value := Text.lower value }
  | type =>
    let value ← o.scalar "value"
    return .literal { type, value }

def case (r : Readers) (o : Object) (scopes : List Scope) : Read Node := do
  let basis ← r.child? o "basis" scopes
  let conditions ← r.arguments o scopes
  let results ← r.children o "results" scopes
  if results.length ≠ conditions.length ∧ results.length ≠ conditions.length + 1 then
    o.refuseAt "results" (.resultCount conditions.length results.length)
  return .case basis (conditions.zipWith Branch.mk results) results[conditions.length]?

def groupConcat (r : Readers) (o : Object) (scopes : List Scope) : Read Node := do
  let distinct ← o.boolean "distinct" false
  let arg ← r.argument o scopes
  let order ← order? r o scopes
  let separator ← if o.has "separator" then some <$> o.string "separator" else pure none
  return .groupConcat arg distinct order separator

def window (r : Readers) (o : Object) (scopes : List Scope) : Read Node := do
  let name ← o.string "name"
  let args ← r.arguments o scopes
  let partition ← r.children o "partitionBy" scopes
  let order ← order? r o scopes
  let bounds ←
    if o.has "frame" then some <$> (do Expression.frame (← o.child "frame")) else pure none
  return .window (Text.upper name) args partition order bounds

/-- An expression that is neither a comparison nor a constant. Nodes without a law are read as
ever. -/
def tagged (r : Readers) (catalog : Catalog) (o : Object) (scopes : List Scope) :
    (tag : String) → Read Node
  | "predicate_and" => do return .and (← r.children o "expressions" scopes)
  | "predicate_or" => do return .or (← r.children o "expressions" scopes)
  | "predicate_in_constlist" => do
    let expr ← r.child o "expression" scopes
    return .inList expr (← r.arguments o scopes)
  | "predicate_in_subselect" => do
    let expr ← r.child o "expression" scopes
    return .inSubquery expr (← r.statement (← o.child "select") scopes)
  | "function_scalar_cast" => do
    let type ← DataType.read (← o.child "dataType")
    return .cast (← r.argument o scopes) type
  | "function_scalar_case" => case r o scopes
  | "function_aggregate_group_concat" => groupConcat r o scopes
  | "function_window" => window r o scopes
  | tag => Expression.tagged r catalog o scopes tag

def expression (r : Readers) (catalog : Catalog) (o : Object) (scopes : List Scope) :
    Read Node := do
  let tag ← o.tag
  match Expression.operators.lookup tag, Expression.constants.lookup tag with
  | some op, _ =>
    let left ← r.child o "left" scopes
    let right ← r.child o "right" scopes
    Read.build (Build.comparison op left right)
  | none, some type => constant o type
  | none, none => tagged r catalog o scopes tag

/-! ## Statements -/

def join (r : Readers) (o : Object) (outer : List Scope) (scope : Scope) :
    Read (Node × Scope) := do
  let name ← o.string "join_type"
  match StatementReader.joinTypes.lookup name with
  | none => o.refuseAt "join_type" (.unknownJoin name)
  | some type =>
    let (left, scope) ← r.fromItem (← o.child "left") outer scope
    let (right, scope) ← r.fromItem (← o.child "right") outer scope
    let condition ← r.child o "condition" (scope :: outer)
    return (.join type left right condition, scope)

def fromItem (r : Readers) (o : Object) (outer : List Scope) (scope : Scope) :
    Read (Node × Scope) := do
  match ← o.tag with
  | "table" => StatementReader.table o scope
  | "join" => join r o outer scope
  | "sub_select" => StatementReader.derivedTable r o outer scope
  | tag => o.refuseAt "type" (.unknownFromItem tag)

def grouping? (r : Readers) (o : Object) (scopes : List Scope) : Read (Option (List Node)) := do
  if !o.has "groupBy" then return none
  let exprs ← r.children o "groupBy" scopes
  return some exprs

def limit? (o : Object) : Read (Option Limit) := do
  if !o.has "limit" then return none
  let o ← o.child "limit"
  if !o.has "numElements" then o.refuseAt "numElements" .missing
  let count ← o.integer "numElements" 0
  let offset ← o.integer "offset" 0
  return some { count, offset }

/-- A statement inside the given scopes. A grouping decides how it aggregates. -/
def statement (r : Readers) (o : Object) (outer : List Scope) : Read Statement := do
  let tag ← o.tag
  if tag ≠ "select" then o.refuseAt "type" (.notSelect tag)
  let (source, scope) ←
    if o.has "from" then
      (fun (node, scope) => (some node, scope)) <$> (do r.fromItem (← o.child "from") outer {})
    else pure (none, {})
  let scopes := scope :: outer
  let list ← StatementReader.selectList r o scopes
  let filter ← r.child? o "filter" scopes
  let aggregation ← StatementReader.aggregation o
  let grouping ← grouping? r o scopes
  let having ← r.child? o "having" scopes
  let order ← order? r o scopes
  let limit ← limit? o
  return {
    list, source, filter, grouping, having, order, limit
    aggregation := if grouping.isSome then .groupBy else aggregation }

/-- Read objects with at most `room` levels of objects. -/
def within (catalog : Catalog) : (room : Nat) → Readers
  | 0 => .refusing
  | room + 1 =>
    let inner := within catalog room
    { statement := statement inner
      fromItem := fromItem inner
      expression := expression inner catalog }

end Unchecked

/-! ## What a construction returns -/

namespace Build

theorem map_some_inj {given nodes : List Node} (h : given.map some = nodes.map some) :
    nodes = given := (List.map_inj_right fun _ _ => Option.some.inj).mp h.symm

theorem eq_of_operands {kind : Kind} {given nodes : List Node}
    (h : operands kind (given.map some) = .ok nodes) : nodes = given :=
  map_some_inj (operands_eq_ok h).2

theorem eq_of_orderBy {given keys : List (SortKey Node)}
    (h : orderBy (given.map fun key => some key.expr) (given.map (·.ascending))
      (given.map (·.nullsLast)) = .ok keys) : keys = given := by
  unfold orderBy at h
  split at h
  · exact absurd h fail_ne_ok
  split at h
  · exact absurd h fail_ne_ok
  simp only [bind_eq_ok, pure_eq_ok] at h
  obtain ⟨exprs, taken, rfl⟩ := h
  rw [← Function.comp_def some, ← List.map_map] at taken
  obtain rfl := map_some_inj (present_eq_ok taken)
  rw [List.zip_map', List.zipWith_map, List.zipWith_self, List.map_id']

theorem eq_of_and {given : List Node} {n : Node} (h : and (given.map some) = .ok n) :
    n = .and given := by
  simp only [and, bind_eq_ok, pure_eq_ok] at h
  obtain ⟨nodes, taken, rfl⟩ := h
  rw [eq_of_operands taken]

theorem eq_of_or {given : List Node} {n : Node} (h : or (given.map some) = .ok n) :
    n = .or given := by
  simp only [or, bind_eq_ok, pure_eq_ok] at h
  obtain ⟨nodes, taken, rfl⟩ := h
  rw [eq_of_operands taken]

theorem eq_of_inList {expr n : Node} {values : List Node}
    (h : inList (some expr) (values.map some) = .ok n) : n = .inList expr values := by
  simp only [inList, bind_eq_ok, pure_eq_ok] at h
  obtain ⟨nodes, taken, rfl⟩ := h
  rw [eq_of_operands taken]

theorem eq_of_inSubquery {expr n : Node} {s : Statement}
    (h : inSubquery (some expr) (some s) = .ok n) : n = .inSubquery expr s := by
  simp only [inSubquery] at h
  split at h
  · cases h
    rfl
  · exact absurd h fail_ne_ok

theorem eq_of_cast {arg n : Node} {type : DataType} (h : cast (some arg) type = .ok n) :
    n = .cast arg type := by
  simp only [cast, bind_eq_ok, pure_eq_ok] at h
  obtain ⟨_, _, rfl⟩ := h
  rfl

theorem eq_of_case {basis otherwise : Option Node} {conditions results : List Node} {n : Node}
    (h : case basis (conditions.zipWith (fun c r => Branch.mk (some c) (some r)) results)
      otherwise = .ok n) : n = .case basis (conditions.zipWith Branch.mk results) otherwise := by
  obtain ⟨-, built, same, rfl⟩ := case_eq_ok h
  have whole : (conditions.zipWith Branch.mk results).map
      (fun b => Branch.mk (some b.condition) (some b.result)) =
      built.map fun b => ⟨some b.condition, some b.result⟩ := by
    rw [← same, List.map_zipWith]
  rw [(List.map_inj_right fun b b' equal => by cases b; cases b'; simp_all).mp whole]

theorem eq_of_window {name : String} {args partition : List Node}
    {order : Option (List (SortKey Node))} {frame : Option Frame} {n : Node}
    (h : window name (args.map some) (partition.map some) order frame = .ok n) :
    n = .window (Text.upper name) args partition order frame := by
  obtain ⟨nodes, parts, sameArgs, sameParts, rfl, -⟩ := window_eq_ok h
  rw [map_some_inj sameArgs, map_some_inj sameParts]

theorem eq_of_groupConcat {arg n : Node} {distinct : Bool} {order : Option (List (SortKey Node))}
    {separator : Option String} (h : groupConcat (some arg) distinct order separator = .ok n) :
    n = .groupConcat arg distinct order separator := by
  cases h
  rfl

theorem eq_of_limit {count offset : Int} {l : Limit} (h : limit count offset = .ok l) :
    l = { count, offset } := by
  unfold limit at h
  split at h
  · exact absurd h fail_ne_ok
  split at h
  · exact absurd h fail_ne_ok
  cases h
  rfl

theorem eq_of_intervalLiteral {value : String} {type : DataType} {l : Literal}
    (h : intervalLiteral value type = .ok l) :
    l = { type := .interval, value, interval := type } := by
  unfold intervalLiteral at h
  simp only [fail_bind] at h
  split at h
  · exact absurd h fail_ne_ok
  simp only [bind_eq_ok] at h
  obtain ⟨_, _, h⟩ := h
  split at h
  · cases h
    rfl
  · exact absurd h fail_ne_ok

/-- A constant that is accepted keeps its text, unless it is NULL or a truth value. -/
theorem eq_of_literal {type : LiteralType} {value : String} {l : Literal}
    (h : literal type value = .ok l) (text : type ≠ .null ∧ type ≠ .bool) :
    l = { type, value } := by
  unfold literal at h
  cases type with
  | null => exact absurd rfl text.1
  | bool => exact absurd rfl text.2
  | string => cases h; rfl
  | interval | other _ => exact absurd h fail_ne_ok
  | double =>
    simp only at h
    split at h
    · cases h; rfl
    · split at h <;> exact absurd h fail_ne_ok
  | exactNumeric | date | timestamp | timestampUtc =>
    simp only at h
    split at h
    · cases h; rfl
    · exact absurd h fail_ne_ok

theorem eq_of_boolLiteral {value : String} {l : Literal} (h : literal .bool value = .ok l) :
    l = { type := .bool, value := Text.lower value } := by
  simp only [literal] at h
  split at h
  · cases h; rfl
  · exact absurd h fail_ne_ok

end Build

/-! ## The checks guard what is described -/

namespace Unchecked

open Read (Guards)

variable {r r' : Readers} (h : r.Guards r') (catalog : Catalog) (o : Object) (scopes : List Scope)

theorem constant_guards (type : LiteralType) :
    (Expression.constant o type).Guards (constant o type) := by
  cases type with
  | null => exact .refl _
  | interval =>
    refine (Guards.refl _).bind fun value => (Guards.refl _).bind fun o => ?_
    exact (Guards.refl _).bind fun range => .map _ (.build fun _ => Build.eq_of_intervalLiteral)
  | bool =>
    exact (Guards.refl _).bind fun value => .map _ (.build fun _ => Build.eq_of_boolLiteral)
  | exactNumeric | double | string | date | timestamp | timestampUtc | other _ =>
    refine (Guards.refl _).bind fun value => .map _ (.build fun _ built => ?_)
    exact Build.eq_of_literal built ⟨nofun, nofun⟩

include h

theorem order?_guards : (r.order? o scopes).Guards (order? r' o scopes) := by
  refine .ite (.refl _) ((Guards.refl _).bind fun os => ?_)
  refine (Guards.mapM (fun o => h.sortKey o scopes) os).bind fun keys => ?_
  exact .map _ (.build fun _ => Build.eq_of_orderBy)

theorem case_guards : (Expression.case r o scopes).Guards (case r' o scopes) := by
  refine (h.child? ..).bind fun basis => (h.arguments ..).bind fun conditions => ?_
  refine (h.children ..).bind fun results => .ite (.refl _) ?_
  exact .build fun _ => Build.eq_of_case

theorem aggregate_guards :
    (Expression.aggregate r o scopes).Guards (Expression.aggregate r' o scopes) := by
  refine (Guards.refl _).bind fun name => (Guards.refl _).bind fun distinct => ?_
  exact (h.arguments ..).bind fun args => (h.child? ..).bind fun filter => .refl _

theorem groupConcat_guards :
    (Expression.groupConcat r o scopes).Guards (groupConcat r' o scopes) := by
  refine (Guards.refl _).bind fun distinct => (h.argument ..).bind fun arg => ?_
  refine (order?_guards h ..).bind fun order => ?_
  refine .ite ((Guards.refl _).bind fun separator => ?_) ((Guards.refl _).bind fun separator => ?_)
  · exact .build fun _ => Build.eq_of_groupConcat
  · exact .build fun _ => Build.eq_of_groupConcat

theorem window_guards : (Expression.window r o scopes).Guards (window r' o scopes) := by
  refine (Guards.refl _).bind fun name => (h.arguments ..).bind fun args => ?_
  refine (h.children ..).bind fun partition => (order?_guards h ..).bind fun order => ?_
  refine .ite ((Guards.refl _).bind fun bounds => ?_) ((Guards.refl _).bind fun bounds => ?_)
  · exact .build fun _ => Build.eq_of_window
  · exact .build fun _ => Build.eq_of_window

theorem tagged_guards (tag : String) :
    (Expression.tagged r catalog o scopes tag).Guards (tagged r' catalog o scopes tag) := by
  unfold tagged
  split
  · exact (h.children ..).bind fun ns => .build fun _ => Build.eq_of_and
  · exact (h.children ..).bind fun ns => .build fun _ => Build.eq_of_or
  · refine (h.child ..).bind fun expr => (h.arguments ..).bind fun values => ?_
    exact .build fun _ => Build.eq_of_inList
  · refine (h.child ..).bind fun expr => (Guards.refl _).bind fun o => ?_
    exact (h.statement ..).bind fun s => .build fun _ => Build.eq_of_inSubquery
  · refine (Guards.refl _).bind fun o => (Guards.refl _).bind fun type => ?_
    exact (h.argument ..).bind fun arg => .build fun _ => Build.eq_of_cast
  · exact case_guards h ..
  · exact groupConcat_guards h ..
  · exact window_guards h ..
  · -- The other nodes are put together as ever, so only their parts matter. The cases follow the
    -- tags of `Expression.tagged`.
    unfold Expression.tagged
    split
    case h_1 => exact .refl _
    case h_4 => exact (h.child ..).bind fun operand => .refl _
    case h_5 =>
      refine (h.child ..).bind fun expr => (h.child ..).bind fun pattern => ?_
      exact (h.child? ..).bind fun escape => .refl _
    case h_6 => exact (h.child ..).bind fun expr => (h.child ..).bind fun pattern => .refl _
    case h_7 =>
      refine (h.child ..).bind fun expr => (h.child ..).bind fun low => ?_
      exact (h.child ..).bind fun high => .refl _
    case h_10 | h_11 => exact (h.child ..).bind fun operand => .refl _
    case h_12 => exact (Guards.refl _).bind fun name => (h.arguments ..).bind fun args => .refl _
    case h_13 => exact (Guards.refl _).bind fun part => (h.argument ..).bind fun arg => .refl _
    case h_16 => exact aggregate_guards h ..
    case h_19 => exact .refl _
    all_goals exact absurd rfl ‹_›

theorem expression_guards :
    (Expression.read r catalog o scopes).Guards (expression r' catalog o scopes) := by
  refine (Guards.refl _).bind fun tag => ?_
  cases Expression.operators.lookup tag with
  | some op => exact (h.child ..).bind fun left => (h.child ..).bind fun right => .refl _
  | none =>
    cases Expression.constants.lookup tag with
    | some type => exact constant_guards o type
    | none => exact tagged_guards h ..

variable (outer : List Scope) (scope : Scope)

theorem join_guards :
    (StatementReader.join r o outer scope).Guards (join r' o outer scope) := by
  refine (Guards.refl _).bind fun name => ?_
  cases StatementReader.joinTypes.lookup name with
  | none => exact .refl _
  | some type =>
    refine (Guards.refl _).bind fun o => (h.fromItem ..).bind fun left => ?_
    refine (Guards.refl _).bind fun o => (h.fromItem ..).bind fun right => ?_
    refine (h.child ..).bind fun condition => ?_
    have built : (Read.build (Build.join type (some left.1) (some right.1) (some condition))).Guards
        (pure (.join type left.1 right.1 condition)) := .build fun _ => Build.join_eq_ok
    exact built.bind fun n => .refl _

theorem derivedTable_guards :
    (StatementReader.derivedTable r o outer scope).Guards
      (StatementReader.derivedTable r' o outer scope) := by
  refine (Guards.refl _).bind fun aliasName => (Guards.refl _).bind fun o => ?_
  exact (h.statement ..).bind fun s => .refl _

theorem fromItem_guards :
    (StatementReader.fromItem r o outer scope).Guards (fromItem r' o outer scope) := by
  refine (Guards.refl _).bind fun tag => ?_
  split
  · exact .refl _
  · exact join_guards h ..
  · exact derivedTable_guards h ..
  · -- No other tag names a FROM item.
    simp [Guards.refl, *]

theorem selectList_guards :
    (StatementReader.selectList r o scopes).Guards (StatementReader.selectList r' o scopes) := by
  refine .ite (.refl _) ((Guards.refl _).bind fun os => ?_)
  refine (Guards.mapM (fun o => ?_) os).bind fun items => .refl _
  exact (h.expression ..).bind fun expr => .refl _

theorem grouping?_guards :
    (StatementReader.grouping? r o scopes).Guards (grouping? r' o scopes) := by
  refine .ite (.refl _) ((h.children ..).bind fun exprs => ?_)
  exact .map _ (.build fun _ => Build.eq_of_operands)

omit h in
theorem limit?_guards : (StatementReader.limit? o).Guards (limit? o) := by
  refine .ite (.refl _) ((Guards.refl _).bind fun o => .ite (.refl _) ?_)
  refine (Guards.refl _).bind fun count => (Guards.refl _).bind fun offset => ?_
  exact .map some (.build fun _ => Build.eq_of_limit)

theorem statement_guards :
    (StatementReader.read r o outer).Guards (statement r' o outer) := by
  refine (Guards.refl _).bind fun tag => .ite (.refl _) ?_
  -- The FROM clause may be absent; either way the other clauses are read inside its scope.
  refine .ite (Guards.bind (.map _ ((Guards.refl _).bind fun o => h.fromItem ..)) fun p => ?_)
    ((Guards.refl _).bind fun p => ?_)
  all_goals
    refine (selectList_guards h ..).bind fun list => (h.child? ..).bind fun filter => ?_
    refine (Guards.refl _).bind fun aggregation => (grouping?_guards h ..).bind fun grouping => ?_
    refine (h.child? ..).bind fun having => (order?_guards h ..).bind fun order => ?_
    exact (limit?_guards o).bind fun limit => .build fun _ => Build.select_eq_ok

omit h in
/-- At any number of levels, reading does what is described or finds a rule broken. -/
theorem within_guards (room : Nat) :
    (Readers.within catalog room).Guards (within catalog room) := by
  induction room with
  | zero => exact ⟨fun _ _ => .refl _, fun _ _ _ => .refl _, fun _ _ => .refl _⟩
  | succ room ih =>
    exact ⟨statement_guards ih, fromItem_guards ih, expression_guards ih catalog⟩

end Unchecked

/-! ## Documents -/

/-- The pushdown that a request describes. -/
def PushdownRequest.describe (root : Object) (schema : Schema) : Read PushdownRequest := do
  let tables ← (← root.list "involvedTables").mapM TableInfo.read
  let catalog := Catalog.ofTables schema.name tables
  let o ← root.child "pushdownRequest"
  let statement ← (Unchecked.within catalog maxDepth).statement o []
  return { statement := some statement, tables, catalog, schema }

namespace Request

/-- The request that a document describes, whether or not its tree is lawful. -/
def describe (text : String) : Read Request := do
  let root ← Object.readDocument text
  let type ← readType root
  let schema ←
    if root.has "schemaMetadataInfo" then Schema.read (← root.child "schemaMetadataInfo")
    else pure {}
  if type = .pushdown then
    return { type, schema, pushdown := some (← PushdownRequest.describe root schema) }
  else return { type, schema }

theorem pushdown_guards (root : Object) (schema : Schema) :
    (PushdownRequest.read root schema).Guards (PushdownRequest.describe root schema) := by
  refine (Read.Guards.refl _).bind fun os => (Read.Guards.refl _).bind fun tables => ?_
  refine (Read.Guards.refl _).bind fun o => Read.Guards.bind ?_ fun s => .refl _
  exact (Unchecked.within_guards ..).statement o []

theorem read_guards (text : String) : (read text).Guards (describe text) := by
  refine (Read.Guards.refl _).bind fun root => (Read.Guards.refl _).bind fun type => ?_
  refine .ite ((Read.Guards.refl _).bind fun o => (Read.Guards.refl _).bind fun schema => ?_)
    ((Read.Guards.refl _).bind fun schema => ?_)
  all_goals exact .ite ((pushdown_guards root schema).bind fun p => .refl _) (.refl _)

theorem exists_pushdown {text : String} (h : ((read text).toOption.bind (·.pushdown)).isSome) :
    ∃ r p, read text = .ok r ∧ r.pushdown = some p := by
  cases outcome : read text with
  | ok r =>
    obtain ⟨p, given⟩ := Option.isSome_iff_exists.mp h
    rw [outcome] at given
    exact ⟨r, p, rfl, given⟩
  | error e => simp [outcome, Except.toOption] at h

/-- Every node of a tree that has been read is lawful. A document is read as what it describes, or
refused because a rule of the syntax tree is broken; and it is refused if it describes a tree with
a node that is not lawful. -/
theorem read_lawful (text : String) :
    (∀ r p, read text = .ok r → r.pushdown = some p →
      ∃ s, p.statement = some s ∧ (Node.select s).Everywhere Node.Lawful) ∧
    (read text = describe text ∨ ∃ e, read text = .error (.construction e)) ∧
    ∀ r p s, describe text = .ok r → r.pushdown = some p → p.statement = some s →
      ¬ (Node.select s).Everywhere Node.Lawful → ∃ e, read text = .error (.construction e) := by
  have lawful (r : Request) (p : PushdownRequest) (accepted : read text = .ok r)
      (given : r.pushdown = some p) :
      ∃ s, p.statement = some s ∧ (Node.select s).Everywhere Node.Lawful := by
    obtain ⟨s, stated, placed⟩ := readPushdown_wellPlaced (readPushdown_of_read accepted given)
    exact ⟨s, stated, placed.wellFormed.everywhere_lawful⟩
  refine ⟨lawful, read_guards text, fun r p s described given stated unlawful => ?_⟩
  rcases read_guards text with same | broken
  · obtain ⟨s', stated', everywhere⟩ := lawful r p (same.trans described) given
    obtain rfl := Option.some.inj (stated.symm.trans stated')
    exact absurd everywhere unlawful
  · exact broken

set_option maxRecDepth 10000 in
/-- The condition of a join may refer to a side of the join. It may not refer to a table that only
the join around it introduces, though that table is in scope. -/
theorem read_join_lawful :
    let lawful := "\x7b\"type\":\"pushdown\",\"pushdownRequest\":\x7b\"type\":\"select\",
      \"from\":\x7b\"type\":\"join\",\"join_type\":\"inner\",
      \"left\":\x7b\"type\":\"table\",\"name\":\"T\"\x7d,
      \"right\":\x7b\"type\":\"table\",\"name\":\"U\"\x7d,
      \"condition\":\x7b\"type\":\"column\",\"name\":\"A\",\"tableName\":\"T\"\x7d\x7d\x7d\x7d"
    let unlawful := "\x7b\"type\":\"pushdown\",\"pushdownRequest\":\x7b\"type\":\"select\",
      \"from\":\x7b\"type\":\"join\",\"join_type\":\"inner\",
      \"left\":\x7b\"type\":\"table\",\"name\":\"T\"\x7d,
      \"right\":\x7b\"type\":\"join\",\"join_type\":\"inner\",
      \"left\":\x7b\"type\":\"table\",\"name\":\"U\"\x7d,
      \"right\":\x7b\"type\":\"table\",\"name\":\"V\"\x7d,
      \"condition\":\x7b\"type\":\"column\",\"name\":\"A\",\"tableName\":\"T\"\x7d\x7d,
      \"condition\":\x7b\"type\":\"column\",\"name\":\"A\",\"tableName\":\"T\"\x7d\x7d\x7d\x7d"
    (∃ r p s, read lawful = .ok r ∧ r.pushdown = some p ∧ p.statement = some s ∧
      (Node.select s).Everywhere Node.Lawful) ∧
    ∃ r p s e, describe unlawful = .ok r ∧ r.pushdown = some p ∧ p.statement = some s ∧
      ¬ (Node.select s).Everywhere Node.Lawful ∧ read unlawful = .error (.construction e) := by
  intro lawful unlawful
  constructor
  · have accepted : ((read lawful).toOption.bind (·.pushdown)).isSome := by
      have same : lawful = String.ofList _ := rfl
      rw [same, read, Object.readDocument_ofList]
      decide +kernel
    obtain ⟨r, p, ok, given⟩ := exists_pushdown accepted
    obtain ⟨s, stated, everywhere⟩ := (read_lawful lawful).1 r p ok given
    exact ⟨r, p, s, ok, given, stated, everywhere⟩
  · let column : Column := { table := "T", name := "A" }
    let inner : Node :=
      .join .inner (.table { name := "U" }) (.table { name := "V" }) (.column column)
    let s : Statement :=
      { list := { star := true }
        source := some (.join .inner (.table { name := "T" }) inner (.column column)) }
    have described : describe unlawful =
        .ok { type := .pushdown, schema := {}, pushdown := some { statement := some s } } := by
      have same : unlawful = String.ofList _ := rfl
      rw [same, describe, Object.readDocument_ofList]
      rfl
    have broken : ¬ (Node.select s).Everywhere Node.Lawful := by
      intro everywhere
      have inside : inner ∈ (Node.select s).nodes :=
        Node.mem_nodes_of_mem_children (Node.mem_children_select.mpr (.inr (.inl rfl)))
          (Node.mem_nodes_of_mem_children (.tail _ (.head _)) (Node.mem_nodes_self inner))
      obtain ⟨-, -, refers⟩ := everywhere inner inside
      have own : (Node.column column).OwnColumn column := by
        rw [Node.OwnColumn, Node.walk_eq]
        exact List.mem_cons_self ..
      exact absurd (refers column own) (by decide)
    obtain ⟨e, refused⟩ := (read_lawful unlawful).2.2 _ _ s described rfl rfl broken
    exact ⟨_, _, s, e, described, rfl, rfl, broken, refused⟩

end Request

end Pushdown
