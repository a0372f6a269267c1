import Pushdown.Proofs.Request.Nesting

/-!
# Reading with a counter

The readers of a request know how many levels of nodes there is room for. The same reading may as
well keep one counter for the whole request, which goes up where a node is entered and down where
it is left. Here the readers are written once more that way. `Counted.Balanced` says that such a
reading has the outcome of one without a counter and leaves the counter as it was; it passes through
the steps of a reading, so it holds of all of them, whatever their outcome.
-/

namespace Pushdown

/-- A reading that may change a counter, also if it fails. -/
abbrev Counted := ExceptT ReadError (StateM Nat)

namespace Counted

/-- The outcome from a value of the counter, and the value behind it. -/
def start {α : Type} (x : Counted α) (count : Nat) : Read α × Nat := x.run.run count

/-- Read a node one level deeper, unless the counter is at its limit. -/
def entering {α : Type} (o : Object) (x : Counted α) : Counted α :=
  ExceptT.mk fun count =>
    if maxDepth ≤ count then (o.refuse (.tooDeep maxDepth), count)
    else
      let (outcome, count) := x.start (count + 1)
      (outcome, count - 1)

/-- How to read the nodes inside an object. -/
structure Readers where
  statement : Object → List Scope → Counted Statement
  fromItem : Object → (outer : List Scope) → Scope → Counted (Node × Scope)
  expression : Object → List Scope → Counted Node

namespace Readers

def child (r : Readers) (o : Object) (key : String) (scopes : List Scope) : Counted Node := do
  r.expression (← o.child key) scopes

def child? (r : Readers) (o : Object) (key : String) (scopes : List Scope) :
    Counted (Option Node) := do
  if o.has key then return some (← r.child o key scopes) else return none

def children (r : Readers) (o : Object) (key : String) (scopes : List Scope) :
    Counted (List Node) := do
  (← o.list key).mapM fun element => r.expression element scopes

def arguments (r : Readers) (o : Object) (scopes : List Scope) : Counted (List Node) :=
  r.children o "arguments" scopes

def argument (r : Readers) (o : Object) (scopes : List Scope) : Counted Node := do
  match ← r.arguments o scopes with
  | [arg] => return arg
  | args => o.refuseAt "arguments" (.argumentCount 1 args.length)

def sortKey (r : Readers) (scopes : List Scope) (o : Object) : Counted (SortKey Node) := do
  let tag ← o.tag
  if tag ≠ "order_by_element" then o.refuseAt "type" (.notSortKey tag)
  let expr ← r.child o "expression" scopes
  let ascending ← o.boolean "isAscending" true
  let nullsLast ← o.boolean "nullsLast" ascending
  return { expr, ascending, nullsLast }

def order? (r : Readers) (o : Object) (scopes : List Scope) :
    Counted (Option (List (SortKey Node))) := do
  if !o.has "orderBy" then return none
  let keys ← (← o.list "orderBy").mapM (r.sortKey scopes)
  some <$> Read.build (Build.orderBy (keys.map fun key => some key.expr)
    (keys.map (·.ascending)) (keys.map (·.nullsLast)))

end Readers

/-! ## Expressions -/

def case (r : Readers) (o : Object) (scopes : List Scope) : Counted Node := do
  let basis ← r.child? o "basis" scopes
  let conditions ← r.arguments o scopes
  let results ← r.children o "results" scopes
  if results.length ≠ conditions.length ∧ results.length ≠ conditions.length + 1 then
    o.refuseAt "results" (.resultCount conditions.length results.length)
  let branches := conditions.zipWith (fun c result => Branch.mk (some c) (some result)) results
  Read.build (Build.case basis branches results[conditions.length]?)

def aggregate (r : Readers) (o : Object) (scopes : List Scope) : Counted Node := do
  let name ← o.string "name"
  let distinct ← o.boolean "distinct" false
  let args ← r.arguments o scopes
  let filter ← r.child? o "filter" scopes
  Read.build (Build.aggregate name distinct filter (args.map some))

def groupConcat (r : Readers) (o : Object) (scopes : List Scope) : Counted Node := do
  let distinct ← o.boolean "distinct" false
  let arg ← r.argument o scopes
  let order ← r.order? o scopes
  let separator ← if o.has "separator" then some <$> o.string "separator" else pure none
  Read.build (Build.groupConcat (some arg) distinct order separator)

def window (r : Readers) (o : Object) (scopes : List Scope) : Counted Node := do
  let name ← o.string "name"
  let args ← r.arguments o scopes
  let partition ← r.children o "partitionBy" scopes
  let order ← r.order? o scopes
  let bounds ←
    if o.has "frame" then some <$> (do Expression.frame (← o.child "frame")) else pure none
  Read.build (Build.window name (args.map some) (partition.map some) order bounds)

def tagged (r : Readers) (catalog : Catalog) (o : Object) (scopes : List Scope) :
    (tag : String) → Counted Node
  | "column" => Expression.column catalog o scopes
  | "predicate_and" => do
    Read.build (Build.and ((← r.children o "expressions" scopes).map some))
  | "predicate_or" => do
    Read.build (Build.or ((← r.children o "expressions" scopes).map some))
  | "predicate_not" => do Read.build (Build.not (← r.child o "expression" scopes))
  | "predicate_like" => do
    let expr ← r.child o "expression" scopes
    let pattern ← r.child o "pattern" scopes
    let escape ← r.child? o "escapeChar" scopes
    Read.build (Build.like expr pattern escape)
  | "predicate_like_regexp" => do
    let expr ← r.child o "expression" scopes
    let pattern ← r.child o "pattern" scopes
    Read.build (Build.regexpLike expr pattern)
  | "predicate_between" => do
    let expr ← r.child o "expression" scopes
    let low ← r.child o "left" scopes
    let high ← r.child o "right" scopes
    Read.build (Build.between expr low high)
  | "predicate_in_constlist" => do
    let expr ← r.child o "expression" scopes
    let values ← r.arguments o scopes
    Read.build (Build.inList expr (values.map some))
  | "predicate_in_subselect" => do
    let expr ← r.child o "expression" scopes
    let statement ← r.statement (← o.child "select") scopes
    Read.build (Build.inSubquery expr statement)
  | "predicate_is_null" => do Read.build (Build.isNull (← r.child o "expression" scopes))
  | "predicate_is_not_null" => do Read.build (Build.isNotNull (← r.child o "expression" scopes))
  | "function_scalar" => do
    let name ← o.string "name"
    let args ← r.arguments o scopes
    Read.build (Build.function name (args.map some))
  | "function_scalar_extract" => do
    let part ← o.string "toExtract"
    let arg ← r.argument o scopes
    Read.build (Build.extract (.ofName (Text.upper part)) arg)
  | "function_scalar_cast" => do
    let type ← DataType.read (← o.child "dataType")
    let arg ← r.argument o scopes
    Read.build (Build.cast arg type)
  | "function_scalar_case" => case r o scopes
  | "function_aggregate" => aggregate r o scopes
  | "function_aggregate_group_concat" => groupConcat r o scopes
  | "function_window" => window r o scopes
  | tag => o.refuseAt "type" (.unknownNode tag)

def expression (r : Readers) (catalog : Catalog) (o : Object) (scopes : List Scope) :
    Counted Node := do
  let tag ← o.tag
  match Expression.operators.lookup tag, Expression.constants.lookup tag with
  | some op, _ =>
    let left ← r.child o "left" scopes
    let right ← r.child o "right" scopes
    Read.build (Build.comparison op left right)
  | none, some type => Expression.constant o type
  | none, none => tagged r catalog o scopes tag

/-! ## Statements -/

def join (r : Readers) (o : Object) (outer : List Scope) (scope : Scope) :
    Counted (Node × Scope) := do
  let name ← o.string "join_type"
  match StatementReader.joinTypes.lookup name with
  | none => o.refuseAt "join_type" (.unknownJoin name)
  | some type =>
    let (left, scope) ← r.fromItem (← o.child "left") outer scope
    let (right, scope) ← r.fromItem (← o.child "right") outer scope
    let condition ← r.child o "condition" (scope :: outer)
    return (← Read.build (Build.join type left right condition), scope)

def derivedTable (r : Readers) (o : Object) (outer : List Scope) (scope : Scope) :
    Counted (Node × Scope) := do
  let aliasName ← o.string "alias"
  let statement ← r.statement (← o.child "select") outer
  let item ← Read.build (Build.subSelect (some statement) aliasName)
  match scope.add? { table := aliasName, aliasName, derived := true } with
  | some scope => return (item, scope)
  | none => o.refuseAt "alias" (.tableTwice aliasName)

def fromItem (r : Readers) (o : Object) (outer : List Scope) (scope : Scope) :
    Counted (Node × Scope) := do
  match ← o.tag with
  | "table" => StatementReader.table o scope
  | "join" => join r o outer scope
  | "sub_select" => derivedTable r o outer scope
  | tag => o.refuseAt "type" (.unknownFromItem tag)

def selectList (r : Readers) (o : Object) (scopes : List Scope) : Counted (SelectList Node) := do
  if !o.has "selectList" then return { star := true }
  let items ← (← o.list "selectList").mapM fun element => do
    let expr ← r.expression element scopes
    let aliasName ← element.stringOrEmpty "alias"
    return SelectItem.mk (some expr) aliasName
  Read.build (Build.selectList items)

def grouping? (r : Readers) (o : Object) (scopes : List Scope) :
    Counted (Option (List Node)) := do
  if !o.has "groupBy" then return none
  let exprs ← r.children o "groupBy" scopes
  some <$> Read.build (Build.groupBy (exprs.map some))

def statement (r : Readers) (o : Object) (outer : List Scope) : Counted Statement := do
  let tag ← o.tag
  if tag ≠ "select" then o.refuseAt "type" (.notSelect tag)
  let (source, scope) ←
    if o.has "from" then
      (fun (node, scope) => (some node, scope)) <$> (do r.fromItem (← o.child "from") outer {})
    else pure (none, {})
  let scopes := scope :: outer
  let list ← selectList r o scopes
  let filter ← r.child? o "filter" scopes
  let aggregation ← StatementReader.aggregation o
  let grouping ← grouping? r o scopes
  let having ← r.child? o "having" scopes
  let order ← r.order? o scopes
  let limit ← StatementReader.limit? o
  Read.build (Build.select (some list) [.source source, .filter filter, .aggregation aggregation,
    .grouping grouping, .having having, .order order, .limit limit])

/-- Readers that enter every node. The readings `below` are those of nodes at the depth. -/
def levels (catalog : Catalog) (below : Readers) : (depth : Nat) → Readers
  | 0 => below
  | depth + 1 =>
    let inner := levels catalog below depth
    { statement o outer := entering o (statement inner o outer)
      fromItem o outer scope := entering o (fromItem inner o outer scope)
      expression o scopes := entering o (expression inner catalog o scopes) }

/-! ## The counter is left as it was -/

/-- From the value of the counter, the reading has the outcome of one that does not count, and
leaves the counter at that value. -/
def Balanced {α : Type} (count : Nat) (x : Counted α) (y : Read α) : Prop :=
  x.start count = (y, count)

namespace Balanced

variable {α β : Type} {count : Nat} {x : Counted α} {y : Read α}

theorem lift (y : Read α) : Balanced count y y := rfl

theorem pure (a : α) : Balanced count (pure a) (pure a) := rfl

theorem bind {f : α → Counted β} {g : α → Read β} (h : Balanced count x y)
    (next : ∀ a, Balanced count (f a) (g a)) : Balanced count (x >>= f) (y >>= g) := by
  have step : (x >>= f).start count =
      (ExceptT.bindCont f (x.start count).1 : StateM Nat _).run (x.start count).2 := rfl
  unfold Balanced at h ⊢
  rw [step, h]
  cases y with
  | ok a => exact next a
  | error e => rfl

theorem map (f : α → β) (h : Balanced count x y) : Balanced count (f <$> x) (f <$> y) := by
  rw [map_eq_pure_bind, map_eq_pure_bind]
  exact h.bind fun a => pure (f a)

theorem mapM {f : α → Counted β} {g : α → Read β} (each : ∀ a, Balanced count (f a) (g a))
    (as : List α) : Balanced count (as.mapM f) (as.mapM g) := by
  induction as with
  | nil => exact pure []
  | cons a as ih =>
    rw [List.mapM_cons, List.mapM_cons]
    exact (each a).bind fun b => ih.bind fun bs => pure (b :: bs)

theorem ite {c : Prop} [Decidable c] {x' : Counted α} {y' : Read α} (h : Balanced count x y)
    (h' : Balanced count x' y') :
    Balanced count (if c then x else x') (if c then y else y') := by
  split
  · exact h
  · exact h'

end Balanced

/-- The readers, from the value of the counter, do what readers without a counter do. -/
structure Readers.Balances (count : Nat) (r : Readers) (r' : Pushdown.Readers) : Prop where
  statement : ∀ o scopes, Balanced count (r.statement o scopes) (r'.statement o scopes)
  fromItem : ∀ o outer scope, Balanced count (r.fromItem o outer scope) (r'.fromItem o outer scope)
  expression : ∀ o scopes, Balanced count (r.expression o scopes) (r'.expression o scopes)

section

variable {count : Nat} {r : Readers} {r' : Pushdown.Readers} (h : Readers.Balances count r r')
  (catalog : Catalog) (o : Object) (key : String) (outer scopes : List Scope) (scope : Scope)

include h

namespace Readers.Balances

open Counted.Balanced (lift pure)

theorem child : Balanced count (r.child o key scopes) (r'.child o key scopes) :=
  (lift _).bind fun o => h.expression o scopes

theorem child? : Balanced count (r.child? o key scopes) (r'.child? o key scopes) :=
  .ite ((h.child o key scopes).bind fun _ => pure _) (pure _)

theorem children : Balanced count (r.children o key scopes) (r'.children o key scopes) :=
  (lift _).bind fun os => .mapM (fun o => h.expression o scopes) os

theorem argument : Balanced count (r.argument o scopes) (r'.argument o scopes) := by
  refine (h.children ..).bind fun args => ?_
  match args with
  | [_] => exact pure _
  | [] | _ :: _ :: _ => exact lift _

theorem sortKey : Balanced count (r.sortKey scopes o) (r'.sortKey scopes o) := by
  refine (lift _).bind fun tag => .ite (lift _) ?_
  refine (h.child ..).bind fun expr => (lift _).bind fun ascending => ?_
  exact (lift _).bind fun nullsLast => pure _

theorem order? : Balanced count (r.order? o scopes) (r'.order? o scopes) := by
  refine .ite (pure _) ((lift _).bind fun os => ?_)
  exact (Balanced.mapM (fun o => h.sortKey o scopes) os).bind fun keys => .map some (lift _)

end Readers.Balances

open Counted.Balanced (lift pure)

theorem case_balanced : Balanced count (case r o scopes) (Expression.case r' o scopes) := by
  refine (h.child? ..).bind fun basis => (h.children ..).bind fun conditions => ?_
  exact (h.children ..).bind fun results => .ite (lift _) (lift _)

theorem aggregate_balanced :
    Balanced count (aggregate r o scopes) (Expression.aggregate r' o scopes) := by
  refine (lift _).bind fun name => (lift _).bind fun distinct => ?_
  exact (h.children ..).bind fun args => (h.child? ..).bind fun filter => lift _

theorem groupConcat_balanced :
    Balanced count (groupConcat r o scopes) (Expression.groupConcat r' o scopes) := by
  refine (lift _).bind fun distinct => (h.argument ..).bind fun arg => ?_
  refine (h.order? ..).bind fun order => .ite ?_ ((pure _).bind fun separator => lift _)
  exact Balanced.bind (.map some (lift _)) fun separator => lift _

theorem window_balanced :
    Balanced count (window r o scopes) (Expression.window r' o scopes) := by
  refine (lift _).bind fun name => (h.children ..).bind fun args => ?_
  refine (h.children ..).bind fun partition => (h.order? ..).bind fun order => ?_
  refine .ite ?_ ((pure _).bind fun bounds => lift _)
  exact Balanced.bind (.map some ((lift _).bind fun o => lift _)) fun bounds => lift _

theorem tagged_balanced (tag : String) :
    Balanced count (tagged r catalog o scopes tag) (Expression.tagged r' catalog o scopes tag) := by
  unfold tagged
  split
  · exact lift _
  · exact (h.children ..).bind fun operands => lift _
  · exact (h.children ..).bind fun operands => lift _
  · exact (h.child ..).bind fun operand => lift _
  · refine (h.child ..).bind fun expr => (h.child ..).bind fun pattern => ?_
    exact (h.child? ..).bind fun escape => lift _
  · exact (h.child ..).bind fun expr => (h.child ..).bind fun pattern => lift _
  · refine (h.child ..).bind fun expr => (h.child ..).bind fun low => ?_
    exact (h.child ..).bind fun high => lift _
  · exact (h.child ..).bind fun expr => (h.children ..).bind fun values => lift _
  · refine (h.child ..).bind fun expr => (lift _).bind fun o => ?_
    exact (h.statement ..).bind fun statement => lift _
  · exact (h.child ..).bind fun operand => lift _
  · exact (h.child ..).bind fun operand => lift _
  · exact (lift _).bind fun name => (h.children ..).bind fun args => lift _
  · exact (lift _).bind fun part => (h.argument ..).bind fun arg => lift _
  · refine (lift _).bind fun o => (lift _).bind fun type => ?_
    exact (h.argument ..).bind fun arg => lift _
  · exact case_balanced h ..
  · exact aggregate_balanced h ..
  · exact groupConcat_balanced h ..
  · exact window_balanced h ..
  · -- A tag that is none of these is refused on both sides.
    unfold Expression.tagged
    split
    case h_19 => exact lift _
    all_goals exact absurd rfl ‹_›

theorem expression_balanced :
    Balanced count (expression r catalog o scopes) (Expression.read r' catalog o scopes) := by
  refine (lift _).bind fun tag => ?_
  cases Expression.operators.lookup tag with
  | some op => exact (h.child ..).bind fun left => (h.child ..).bind fun right => lift _
  | none =>
    cases Expression.constants.lookup tag with
    | some type => exact lift _
    | none => exact tagged_balanced h ..

theorem join_balanced :
    Balanced count (join r o outer scope) (StatementReader.join r' o outer scope) := by
  refine (lift _).bind fun name => ?_
  cases StatementReader.joinTypes.lookup name with
  | none => exact lift _
  | some type =>
    refine (lift _).bind fun o => (h.fromItem ..).bind fun left => ?_
    refine (lift _).bind fun o => (h.fromItem ..).bind fun right => ?_
    exact (h.child ..).bind fun condition => (lift _).bind fun n => pure _

theorem derivedTable_balanced :
    Balanced count (derivedTable r o outer scope) (StatementReader.derivedTable r' o outer scope) := by
  refine (lift _).bind fun aliasName => (lift _).bind fun o => ?_
  refine (h.statement ..).bind fun statement => (lift _).bind fun item => ?_
  cases scope.add? { table := aliasName, aliasName, derived := true } with
  | some scope => exact Balanced.pure _
  | none => exact lift _

theorem fromItem_balanced :
    Balanced count (fromItem r o outer scope) (StatementReader.fromItem r' o outer scope) := by
  refine (lift _).bind fun tag => ?_
  by_cases isTable : tag = "table"
  · subst isTable
    exact lift _
  by_cases isJoin : tag = "join"
  · subst isJoin
    exact join_balanced h ..
  by_cases isDerived : tag = "sub_select"
  · subst isDerived
    exact derivedTable_balanced h ..
  -- No tag fits, and both readings are left with their last case.
  · simp only
    exact lift _

theorem selectList_balanced :
    Balanced count (selectList r o scopes) (StatementReader.selectList r' o scopes) := by
  refine .ite (pure _) ((lift _).bind fun os => ?_)
  refine (Balanced.mapM (fun o => ?_) os).bind fun items => lift _
  exact (h.expression ..).bind fun expr => (lift _).bind fun aliasName => pure _

theorem grouping?_balanced :
    Balanced count (grouping? r o scopes) (StatementReader.grouping? r' o scopes) :=
  .ite (pure _) ((h.children ..).bind fun _ => .map some (lift _))

theorem statement_balanced :
    Balanced count (statement r o outer) (StatementReader.read r' o outer) := by
  refine (lift _).bind fun tag => .ite (lift _) ?_
  refine .ite (Balanced.bind (.map _ ((lift _).bind fun o => h.fromItem ..)) fun p => ?_)
    ((pure _).bind fun p => ?_)
  all_goals
    refine (selectList_balanced h ..).bind fun list => (h.child? ..).bind fun filter => ?_
    refine (lift _).bind fun aggregation => (grouping?_balanced h ..).bind fun grouping => ?_
    refine (h.child? ..).bind fun having => (h.order? ..).bind fun order => ?_
    exact (lift _).bind fun limit => lift _

end

theorem start_entering {α : Type} (o : Object) (x : Counted α) (count : Nat) :
    (entering o x).start count =
      if maxDepth ≤ count then (o.refuse (.tooDeep maxDepth), count)
      else ((x.start (count + 1)).1, (x.start (count + 1)).2 - 1) := rfl

theorem refuses_at_limit {α : Type} {count : Nat} (limit : maxDepth ≤ count) (o : Object)
    (x : Counted α) : Balanced count (entering o x) (o.refuse (.tooDeep maxDepth)) := by
  rw [Balanced, start_entering, if_pos limit]

theorem Balanced.entering {α : Type} {count : Nat} {x : Counted α} {y : Read α}
    (room : count < maxDepth) (o : Object) (h : Balanced (count + 1) x y) :
    Balanced count (entering o x) y := by
  rw [Balanced, start_entering, if_neg (Nat.not_le.mpr room), h, Nat.add_sub_cancel]

/-- With enough levels for the counter to reach its limit, what would come below them does not
matter. -/
theorem levels_balances (catalog : Catalog) (below : Readers) (depth count : Nat)
    (enough : maxDepth - count < depth) :
    Readers.Balances count (levels catalog below depth)
      (Readers.within catalog (maxDepth - count)) := by
  induction depth generalizing count with
  | zero => omega
  | succ depth ih =>
    by_cases limit : maxDepth ≤ count
    · rw [Nat.sub_eq_zero_of_le limit]
      exact ⟨fun o _ => refuses_at_limit limit o _, fun o _ _ => refuses_at_limit limit o _,
        fun o _ => refuses_at_limit limit o _⟩
    · have room : count < maxDepth := Nat.lt_of_not_le limit
      have inner := ih (count + 1) (by omega)
      rw [show maxDepth - count = maxDepth - (count + 1) + 1 by omega]
      exact ⟨fun o _ => (statement_balanced inner ..).entering room o,
        fun o _ _ => (fromItem_balanced inner ..).entering room o,
        fun o _ => (expression_balanced inner ..).entering room o⟩

end Counted

/-! ## Requests -/

theorem Request.read_detects (text : String) :
    (Request.read text).Detects (∃ n, maxDepth < n ∧ Request.Chain text n) := by
  have document : (Object.readDocument text).Shallow := by
    unfold Object.readDocument
    refine .ite (.refuse nofun) ?_
    cases Json.members? (Json.content text) with
    | some members => exact .ok _
    | none => exact .refuse nofun
  refine .known document fun o found => (ofObject_detects o).congr (Object.exceeds_iff.trans ?_)
  constructor
  · rintro ⟨⟨key, slot⟩, listed, v, present, n, more, chain⟩
    exact ⟨n, more, o, key, slot, v, found, listed, present, chain⟩
  · rintro ⟨n, more, o', key, slot, v, found', listed, present, chain⟩
    obtain rfl := Except.ok.inj (found.symm.trans found')
    exact ⟨_, listed, v, present, n, more, chain⟩

/-- The limit of nesting is one of depth: a document that is accepted has no chain of more than
`maxDepth` nodes, and one without such a chain is never refused as too deep. A counter that goes up
and down with the nodes decides the same, and every reading leaves it as it was. -/
theorem Request.nesting_limit (text : String) :
    (∀ request, Request.read text = .ok request → ∀ n, Request.Chain text n → n ≤ maxDepth) ∧
    ((∀ n, Request.Chain text n → n ≤ maxDepth) → ∀ path limit,
      Request.read text ≠ .error (.malformed ⟨path, .tooDeep limit⟩)) ∧
    ∀ catalog below depth count, maxDepth - count < depth →
      Counted.Readers.Balances count (Counted.levels catalog below depth)
        (Readers.within catalog (maxDepth - count)) := by
  refine ⟨fun request accepted n chain => ?_, fun fits path limit refused => ?_,
    Counted.levels_balances⟩
  · refine Nat.le_of_not_lt fun more => ?_
    exact (read_detects text).accepted request accepted ⟨n, more, chain⟩
  · obtain ⟨n, more, chain⟩ := (read_detects text).refused ⟨path, limit, refused⟩
    exact absurd (fits n chain) (Nat.not_le.mpr more)

end Pushdown
